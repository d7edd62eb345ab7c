import CertMate.RunTriples
import CertMate.CompleteBackups

/-!
# Which calls of a publication fail

A copy or a stage that cannot be finished is so because a call has failed. That there is
nothing, where `Lstat` looks for it, is no failure.
-/
namespace PublishFailures
open CertificateModel CallTrees RunTriples FileSystem CertificateFiles CompleteBackups
open PublishProtocol (Honest exec_honest Writes copyManagedDirectory_writes)

/-- The answers that `Publish` has to take as failures. -/
def failed : (e : Call) → Answer e → Bool
  | .op .lstatRoot, .error err => !isNotExist err
  | .op (.lstat _), .error err => !isNotExist err
  | .op (.lstatIn _ _), .error err => !isNotExist err
  | .op _, .error _ => true
  | _, _ => false

/-- The calls of a run that fail. -/
abbrev failures (H : Host) {α : Type} (p : Files α) (s : Fs) : Nat := count (exec H) failed p s

/-- The calls whose errors are always failures. -/
def Op.fallible : Op → Bool
  | .lstatRoot | .lstat _ | .lstatIn _ _ => false
  | _ => true

section Rules
variable {H : Host} {α : Type} {n : Nat} {s : Fs} {Q : α → Nat × Fs → Prop}

theorem failed_ok {o : Op} (v : Value o) : failed (.op o) (.ok v) = false := by
  cases o <;> rfl

theorem failed_error {o : Op} (fallible : Op.fallible o = true) (err : Error) :
    failed (.op o) (.error err) = true := by
  cases o <;> first | rfl | cases fallible

theorem yields_call {o : Op} {f : Except Error (Value o) → Files α}
    (good : ∀ v s', exec H (.op o) s = (.ok v, s') →
      Yields (counted (exec H) failed) (f (.ok v)) (n, s') Q)
    (bad : ∀ err s', exec H (.op o) s = (.error err, s') →
      Yields (counted (exec H) failed) (f (.error err))
        (tally failed n (.op o) (.error err), s') Q) :
    Yields (counted (exec H) failed) (os o >>= f) (n, s) Q := by
  change Yields _ (f (exec H (.op o) s).1)
    (tally failed n (.op o) (exec H (.op o) s).1, (exec H (.op o) s).2) Q
  generalize made : exec H (.op o) s = r
  obtain ⟨a, s'⟩ := r
  cases a with
  | error err => exact bad err s' made
  | ok v =>
    have same : tally failed n (.op o) (.ok v) = n := by
      rw [tally, failed_ok]
      rfl
    change Yields _ (f (.ok v)) (tally failed n (.op o) (.ok v), s') Q
    rw [same]
    exact good v s' made

theorem yields_op {o : Op} {f : Except Error (Value o) → Files α} (fallible : Op.fallible o = true)
    (good : ∀ v s', exec H (.op o) s = (.ok v, s') →
      Yields (counted (exec H) failed) (f (.ok v)) (n, s') Q)
    (bad : ∀ err s', exec H (.op o) s = (.error err, s') →
      Yields (counted (exec H) failed) (f (.error err)) (n + 1, s') Q) :
    Yields (counted (exec H) failed) (os o >>= f) (n, s) Q := by
  refine yields_call good fun err s' made => ?_
  have one : tally failed n (.op o) (.error err) = n + 1 := by
    rw [tally, failed_error fallible]
    rfl
  rw [one]
  exact bad err s' made

theorem yields_range {values : List (String × FileMode)}
    {f : { order : List (String × FileMode) // order.Perm values } → Files α}
    (next : ∀ order s', s'.nodes = s.nodes → Yields (counted (exec H) failed) (f order) (n, s') Q) :
    Yields (counted (exec H) failed) (range values >>= f) (n, s) Q :=
  next (exec H (.range values) s).1 _ rfl

theorem yields_now {f : Time → Files α}
    (next : ∀ time s', s'.nodes = s.nodes → Yields (counted (exec H) failed) (f time) (n, s') Q) :
    Yields (counted (exec H) failed) (now >>= f) (n, s) Q :=
  next (exec H .now s).1 _ rfl

/-- The host makes no call fail with this error. -/
theorem missing_acted {o : Op} {err : Error} {s' : Fs} (missing : isNotExist err = true)
    (made : exec H (.op o) s = (.error err, s')) : (act H o s).1 = .error err := by
  rcases exec_error (congrArg Prod.fst made) with ⟨failed, -⟩ | ⟨answer, -⟩
  · have answered := congrArg Prod.fst made
    simp only [exec, failed, if_true] at answered
    cases answered
    cases missing
  · exact answer

theorem lstat_missing {p : FileSystem.Path} {err : Error} {s' : Fs} (absent : isNotExist err = true)
    (made : exec H (.op (.lstat p)) s = (.error err, s')) : s.nodes p = none := by
  have answer := missing_acted absent made
  simp only [act] at answer
  split at answer
  · assumption
  · cases answer

theorem lstatIn_missing {p : FileSystem.Path} {name : String} {err : Error} {s' : Fs}
    (absent : isNotExist err = true)
    (made : exec H (.op (.lstatIn p name)) s = (.error err, s')) : s.entryAt p name = none := by
  have answer := missing_acted absent made
  simp only [act] at answer
  split at answer
  · assumption
  · cases answer

theorem yields_lstat {p : FileSystem.Path} {f : Except Error Info → Files α}
    (good : ∀ info s', exec H (.op (.lstat p)) s = (.ok info, s') →
      Yields (counted (exec H) failed) (f (.ok info)) (n, s') Q)
    (missing : ∀ err s', isNotExist err = true → s.nodes p = none → s'.nodes = s.nodes →
      Yields (counted (exec H) failed) (f (.error err)) (n, s') Q)
    (bad : ∀ err s', isNotExist err = false → s'.nodes = s.nodes →
      Yields (counted (exec H) failed) (f (.error err)) (n + 1, s') Q) :
    Yields (counted (exec H) failed) (lstat p >>= f) (n, s) Q := by
  refine yields_call good fun err s' made => ?_
  have nodes := reads_nodes (fun _ => id) made
  cases absent : isNotExist err with
  | true =>
    simp only [tally, failed, absent, Bool.not_true, Bool.false_eq_true, if_false]
    exact missing err s' absent (lstat_missing absent made) nodes
  | false =>
    simp only [tally, failed, absent, Bool.not_false, if_true]
    exact bad err s' absent nodes

theorem yields_lstatIn {p : FileSystem.Path} {name : String} {f : Except Error Info → Files α}
    (good : ∀ info s', exec H (.op (.lstatIn p name)) s = (.ok info, s') →
      Yields (counted (exec H) failed) (f (.ok info)) (n, s') Q)
    (missing : ∀ err s', isNotExist err = true → s.entryAt p name = none → s'.nodes = s.nodes →
      Yields (counted (exec H) failed) (f (.error err)) (n, s') Q)
    (bad : ∀ err s', isNotExist err = false → s'.nodes = s.nodes →
      Yields (counted (exec H) failed) (f (.error err)) (n + 1, s') Q) :
    Yields (counted (exec H) failed) (lstatIn p name >>= f) (n, s) Q := by
  refine yields_call good fun err s' made => ?_
  have nodes := reads_nodes (fun _ => id) made
  cases absent : isNotExist err with
  | true =>
    simp only [tally, failed, absent, Bool.not_true, Bool.false_eq_true, if_false]
    exact missing err s' absent (lstatIn_missing absent made) nodes
  | false =>
    simp only [tally, failed, absent, Bool.not_false, if_true]
    exact bad err s' absent nodes

end Rules

/-- Nothing has failed in what goes well, and, where `P` holds, something in what does not. -/
def Counts {α : Type} (P : Prop) (n : Nat) : Except Error α → Nat → Prop
  | .ok _, m => m = n
  | .error _, m => P → n < m

/-- The directory of a certificate: its files are there, and a marker is a file too. -/
structure Whole (d : Dir) : Prop where
  files : ∀ file ∈ allowedFiles, ∃ f, d.get file.1 = some (.file f)
  marked : ∀ entry, d.get marker = some entry → ∃ f, entry = .file f

section Copies
variable {H : Host} {n : Nat} {s : Fs} {source target : FileSystem.Path} {d d' : Dir}

theorem statOpened_ok {handle : Opened} {info : Info} {s' : Fs}
    (made : exec H (.op (.statOpened handle)) s = (.ok info, s')) : info = handle.info := by
  have answer := (made_ok made).1
  cases answer
  rfl

/-- A regular file is copied unless a call fails. -/
theorem copyFile_counts {name : String} {mode : FileMode} (there : s.nodes source = some (.dir d)) :
    Yields (counted (exec H) failed) (copyFile source target name mode) (n, s)
      fun r x => Counts (∃ f, d.get name = some (.file f)) n r x.1 := by
  refine yields_lstatIn (fun info s₁ seen => ?_) (fun err s₁ _ absent _ => ?_) fun err s₁ _ _ _ => ?_
  · obtain ⟨entry, found, rfl⟩ := lstatIn_ok there seen
    have there₁ : s₁.nodes source = some (.dir d) := by rw [reads_nodes (fun _ => id) seen, there]
    dsimp only
    split
    · rename_i other
      rintro ⟨f, found'⟩
      cases found.symm.trans found'
      exact absurd rfl other
    rename_i regular
    obtain ⟨f, rfl⟩ := regular_file (not_not.mp regular)
    refine yields_op rfl (fun input s₂ opened => ?_) fun err s₂ _ _ => Nat.lt_succ_self n
    obtain rfl := openFile_ok there₁ found opened
    refine yields_op rfl (fun openedInfo s₃ stated => ?_) fun err s₃ _ _ => Nat.lt_succ_self n
    obtain rfl := statOpened_ok stated
    have unchanged : ¬ ((Opened.file f).info.kind ≠ .regular ∨
        (Opened.file f).info.serial ≠ (Entry.file f).info.serial) := by
      rintro (other | other)
      · exact other rfl
      · exact other rfl
    dsimp only
    rw [if_neg unchanged]
    refine yields_op rfl (fun _ s₄ _ => ?_) fun err s₄ _ _ => Nat.lt_succ_self n
    refine yields_op rfl (fun _ s₅ _ => ?_) fun err s₅ _ => ?_
    · exact yields_op rfl (fun _ s₆ _ => rfl) fun err s₆ _ _ => Nat.lt_succ_self n
    · refine yields_op rfl (fun _ s₆ _ _ => Nat.lt_succ_self n) fun err s₆ _ _ => ?_
      exact Nat.lt_succ_of_lt (Nat.lt_succ_self n)
  · rintro ⟨f, found⟩
    rw [Fs.entryAt, dirAt_of_dir there, Option.bind_some, found] at absent
    cases absent
  · exact Nat.lt_succ_self n

theorem copyFiles_counts (apart : source ≠ target) {order : List (String × FileMode)}
    (there : s.nodes source = some (.dir d)) (started : s.nodes target = some (.dir d')) :
    Yields (counted (exec H) failed) (copyFiles source target order) (n, s)
      fun r x => Counts (∀ file ∈ order, ∃ f, d.get file.1 = some (.file f)) n r x.1 := by
  induction order generalizing s d' with
  | nil => exact rfl
  | cons file rest ih =>
    refine ((copyFile_counts there).and (counted_state _ _ _)).bind ?_
    rintro r ⟨m, s₁⟩ ⟨counts, ran⟩
    cases r with
    | error err => exact fun good => counts (good file List.mem_cons_self)
    | ok _ =>
      obtain ⟨there₁, -, -, -, -, -, d₁, started₁, -⟩ := copyFile_ok apart there started ran
      cases counts
      refine (ih there₁ started₁).mono fun r x counts => ?_
      cases r with
      | ok _ => exact counts
      | error err => exact fun good => counts fun file later => good file (List.mem_cons_of_mem _ later)

theorem copyMarker_counts (there : s.nodes source = some (.dir d)) :
    Yields (counted (exec H) failed) (copyMarker source target) (n, s)
      fun r x => Counts (∀ entry, d.get marker = some entry → ∃ f, entry = .file f) n r x.1 := by
  refine yields_lstatIn (fun info s₁ seen => ?_) (fun err s₁ missing _ _ => ?_)
    fun err s₁ present _ => ?_
  · obtain ⟨entry, found, rfl⟩ := lstatIn_ok there seen
    dsimp only
    split
    · rename_i other
      intro marked
      obtain ⟨f, rfl⟩ := marked entry found
      exact absurd rfl other
    refine yields_op rfl (fun content s₂ _ => ?_) fun err s₂ _ _ => Nat.lt_succ_self n
    have written : ∀ r : Except Error Unit, Counts (∀ entry, d.get marker = some entry →
        ∃ f, entry = .file f) n r (tally failed n (.op (.writeFile target marker content 0o644)) r) := by
      intro r
      cases r with
      | error err => exact fun _ => Nat.lt_succ_self n
      | ok _ => exact rfl
    exact written _
  · dsimp only
    rw [if_pos missing]
    exact rfl
  · dsimp only
    rw [if_neg (by rw [present]; exact Bool.false_ne_true)]
    exact fun _ => Nat.lt_succ_self n

/-- A copy of a whole directory is made unless a call fails. -/
theorem copyManagedDirectory_counts (apart : source ≠ target)
    (there : s.nodes source = some (.dir d)) :
    Yields (counted (exec H) failed) (copyManagedDirectory source target) (n, s)
      fun r x => Counts (Whole d) n r x.1 := by
  refine yields_op rfl (fun _ s₁ made => ?_) fun err s₁ _ _ => Nat.lt_succ_self n
  obtain ⟨-, mode, started⟩ := mkdir_ok made
  have there₁ := source_stays apart there (fun _ => id) made
  have copied : Yields (counted (exec H) failed) (copyContents source target) (n, s₁)
      fun r x => Counts (Whole d) n r x.1 := by
    refine yields_range fun order s₂ nodes => ?_
    rw [← nodes] at there₁ started
    refine ((copyFiles_counts apart there₁ started).and (counted_state _ _ _)).bind ?_
    rintro r ⟨m, s₃⟩ ⟨counts, ran⟩
    cases r with
    | error err =>
      exact fun whole => counts fun file among => whole.files file (order.2.mem_iff.mp among)
    | ok _ =>
      cases counts
      have there₃ := (copyFiles_ok apart there₁ started ran).1
      refine (copyMarker_counts there₃).mono fun r x counts => ?_
      cases r with
      | ok _ => exact counts
      | error err => exact fun whole => counts whole.marked
  refine copied.bind ?_
  rintro r ⟨m, s₂⟩ counts
  cases r with
  | ok _ => exact counts
  | error err =>
    refine yields_op rfl (fun _ s₃ _ => counts) fun _ s₃ _ whole => ?_
    exact Nat.lt_succ_of_lt (counts whole)

theorem whole_of_complete (complete : Complete d d') : Whole d where
  files file among := by
    obtain ⟨f, -, found, -⟩ := complete.files file among
    exact ⟨f, found⟩
  marked entry found := by
    obtain ⟨f, -, found', -⟩ := complete.marked entry found
    cases found.symm.trans found'
    exact ⟨f, rfl⟩

/-- Where something is already there, a copy is refused and leaves it. -/
theorem copyManagedDirectory_occupied (taken : s.nodes target ≠ none) :
    (run (exec H) (copyManagedDirectory source target) s).2.nodes target = s.nodes target := by
  unfold copyManagedDirectory
  rw [Prog.perform_bind, run_call]
  generalize made : exec H (.op (.mkdir target)) s = r
  obtain ⟨answer, s₁⟩ := r
  cases answer with
  | ok _ => exact absurd (mkdir_ok made).1 taken
  | error err =>
    change s₁.nodes target = s.nodes target
    have after : (exec H (.op (.mkdir target)) s).2 = s₁ := congrArg Prod.snd made
    rw [← after]
    rcases exec_error (congrArg Prod.fst made) with ⟨-, state⟩ | ⟨-, state⟩
    · rw [state]
      rfl
    · rw [state]
      simp only [act]
      split
      · split
        · rename_i absent
          exact absurd absent taken
        · rfl
      · rfl

end Copies

section Frames
variable {H : Host} {s : Fs}

theorem writes_frame {α : Type} {p : Files α} {target q : FileSystem.Path}
    (h : Only Honest (Writes target) p) (away : q ≠ target) :
    (run (exec H) p s).2.nodes q = s.nodes q := by
  refine h.run_frame (exec H) (fun s => s.nodes q) (exec_honest H) (fun e s writes => ?_) s
  cases e with
  | now => rfl
  | range values => rfl
  | op o =>
    refine exec_frame H o s fun touched => away ?_
    cases o <;> first | exact writes.elim | exact writes q touched

theorem writeFiles_writes (stage : FileSystem.Path) (payload : Payload)
    (order : List (String × FileMode)) : Only Honest (Writes stage)
    (writeFiles stage payload order) := by
  induction order with
  | nil => trivial
  | cons file rest ih =>
    unfold writeFiles
    split
    · trivial
    refine only_call.mpr ⟨fun _ => id, fun r _ => ?_⟩
    cases r with
    | error err => trivial
    | ok _ =>
      refine only_call.mpr ⟨fun _ => id, fun r _ => ?_⟩
      cases r with
      | error err => trivial
      | ok _ => exact ih

theorem writeMarker_writes (stage : FileSystem.Path) (payload : Payload) :
    Only Honest (Writes stage) (writeMarker stage payload) := by
  unfold writeMarker
  split
  · refine only_call.mpr ⟨trivial, fun time _ => ?_⟩
    refine only_call.mpr ⟨fun _ => id, fun r _ => ?_⟩
    cases r <;> trivial
  · trivial

end Frames

section Stages
variable {H : Host} {n : Nat} {s : Fs} {stage : FileSystem.Path} {payload : Payload}

/-- The payload has all its parts. -/
def Filled (payload : Payload) : Prop := ∀ file ∈ allowedFiles, (payload.value file.1).isEmpty = false

theorem writeFiles_counts {order : List (String × FileMode)} :
    Yields (counted (exec H) failed) (writeFiles stage payload order) (n, s)
      fun r x => Counts (∀ file ∈ order, (payload.value file.1).isEmpty = false) n r x.1 := by
  induction order generalizing s with
  | nil => exact rfl
  | cons file rest ih =>
    obtain ⟨name, mode⟩ := file
    unfold writeFiles
    split
    · rename_i empty
      intro filled
      rw [filled (name, mode) List.mem_cons_self] at empty
      cases empty
    refine yields_op rfl (fun _ s₁ _ => ?_) fun err s₁ _ _ => Nat.lt_succ_self n
    refine yields_op rfl (fun _ s₂ _ => ?_) fun err s₂ _ _ => Nat.lt_succ_self n
    refine ih.mono fun r x counts => ?_
    cases r with
    | ok _ => exact counts
    | error err => exact fun filled => counts fun file later => filled file (List.mem_cons_of_mem _ later)

theorem writeMarker_counts :
    Yields (counted (exec H) failed) (writeMarker stage payload) (n, s) fun r x => Counts True n r x.1 := by
  unfold writeMarker
  split
  · refine yields_now fun time s₁ _ => ?_
    exact yields_op rfl (fun _ s₂ _ => rfl) fun err s₂ _ _ => Nat.lt_succ_self n
  · exact rfl

end Stages

end PublishFailures
