import CertMate.PublishResults

/-!
# Nothing outside the root

The five operations of the publisher on any disk: what they read, write and delete, which
links they follow, and what they refuse. `Publish`, `Backup` and `Available` look at the root
first. `Read` and `Remove` do not, and go through a root that is a link.
-/
namespace PublisherRoot
open CertificateModel DomainValidation CallTrees RunTriples FileSystem CertificateFiles
  CompleteBackups PublishFailures PublishEnds PublishResults
open PublishProtocol (Honest exec_honest Quiet Hidden Own Agrees Named Progress)
open AtomicPublish (sampleDisk sampleDirectory)

inductive Operation where
  | publish (payload : Payload)
  | read (fileName : String)
  | backup
  | available
  | remove

/-- Whether something goes well, without its result. -/
def outcome {α : Type} (p : Files (Except Error α)) : Files (Except Error Unit) := do
  let r ← p
  return r.map fun _ => ()

def Operation.program (safeName : String) : Operation → Files (Except Error Unit)
  | .publish payload => outcome (CertificateFiles.publish safeName payload)
  | .read fileName => outcome (CertificateFiles.read safeName fileName)
  | .backup => do return (← CertificateFiles.backup safeName).2
  | .available => outcome (CertificateFiles.available safeName)
  | .remove => removeDirectory safeName

/-- The paths at which a call reads, writes or deletes. -/
def Uses : Op → FileSystem.Path → Prop
  | .readFile q _, p | .openFile q _, p => p = q
  | o, p => Touches o p

def LinkAt (s : Fs) (p : FileSystem.Path) : Prop := ∃ outside, s.nodes p = some (.link outside)

def LinkIn (s : Fs) (p : FileSystem.Path) (name : String) : Prop :=
  ∃ outside, s.entryAt p name = some (.link outside)

/-- The call is led elsewhere by a link. -/
def FollowsLink (s : Fs) : Op → Prop
  | .chmodDir p | .lstatIn p _ | .createFile p _ _ => LinkAt s p
  | .writeFile p name _ _ | .chmodFile p name _ | .readFile p name | .openFile p name
  | .copyInto p name _ => LinkAt s p ∨ LinkIn s p name
  | _ => False

/-- The call follows no link, and keeps to the directories of the certificate below a real
root and to the backup directory. -/
def Inside (safeName : String) : Call → Fs → Prop
  | .op o, s => ¬ FollowsLink s o ∧ ∀ p, Uses o p →
      safeDirectory safeName = true ∧ Own safeName p ∧ (p.area = .root → s.root = some .dir)
  | _, _ => True

/-- The files below the target that an operation reads. -/
def Operation.reads : Operation → List String
  | .publish _ | .backup => marker :: allowedFiles.map Prod.fst
  | .available => allowedFiles.map Prod.fst
  | .read fileName => [fileName]
  | .remove => []

/-- The situation that an operation is meant for. -/
structure Sound (op : Operation) (safeName : String) (s : Fs) : Prop where
  root : s.root = some .dir
  safe : safeDirectory safeName = true
  offered : ∀ fileName, op = .read fileName → fileName ∈ allowedFiles.map Prod.fst
  target : s.nodes (targetOf safeName) = none ∨ ∃ d, s.nodes (targetOf safeName) = some (.dir d)
  plain : ∀ name ∈ op.reads, ∀ entry, s.entryAt (targetOf safeName) name = some entry →
    ∃ f, entry = .file f

/-- An error, with nothing changed but stages and backups. -/
def Refused (safeName : String) (s : Fs) (r : Except Error Unit) (s' : Fs) : Prop :=
  (∃ err, r = .error err) ∧
    ∀ p : FileSystem.Path, p.area = .root → ¬ Hidden safeName p → s'.nodes p = s.nodes p

/-- Every call is inside, and what the operation is not meant for is refused. -/
def Contained (H : Host) (op : Operation) (safeName : String) (s : Fs) : Prop :=
  Goes (exec H) (Inside safeName) (op.program safeName) s fun r s' =>
    ¬ Sound op safeName s → Refused safeName s r s'

/-- The checks of `Read` let the file through. -/
structure Readable (H : Host) (safeName fileName : String) (s : Fs) : Prop where
  safe : safeDirectory safeName = true
  offered : fileName ∈ allowedFiles.map Prod.fst
  file : ∃ d f, s.nodes (targetOf safeName) = some (.dir d) ∧ d.get fileName = some (.file f)
  first : H.fails s.calls = false
  second : H.fails (s.calls + 1) = false

/-- The checks of `Remove` find a directory, or nothing where there could be one. -/
structure Removable (H : Host) (safeName : String) (s : Fs) : Prop where
  safe : safeDirectory safeName = true
  placed : (s.nodes (targetOf safeName) = none ∧ s.root ≠ some .regular) ∨
    ∃ d, s.nodes (targetOf safeName) = some (.dir d)
  first : H.fails s.calls = false
  second : H.fails (s.calls + 1) = false

/-- The root is real, or the checks of an operation that does not look at it stop it. -/
def Guarded (H : Host) (op : Operation) (safeName : String) (s : Fs) : Prop :=
  match op with
  | .read fileName => s.root = some .dir ∨ ¬ Readable H safeName fileName s
  | .remove => s.root = some .dir ∨ ¬ Removable H safeName s
  | _ => True

section Calls
variable {H : Host} {s s' : Fs} {p : FileSystem.Path} {name : String}

theorem run_root {α : Type} (p : Files α) (s : Fs) : (run (exec H) p s).2.root = s.root :=
  run_related (exec H) (P := fun s s' => s'.root = s.root) (fun _ => rfl)
    (fun h h' => h'.trans h) (exec_root H) p s

theorem made_root {e : Call} {a : Answer e} (made : exec H e s = (a, s')) : s'.root = s.root := by
  have after : (exec H e s).2 = s' := congrArg Prod.snd made
  rw [← after, exec_root]

theorem made_calls {e : Call} {a : Answer e} (made : exec H e s = (a, s')) :
    s'.calls = s.calls + 1 := by
  have after : (exec H e s).2 = s' := congrArg Prod.snd made
  rw [← after, exec_calls]

/-- The host has let the call through. -/
theorem through_ok {o : Op} {v : Value o} (made : exec H (.op o) s = (.ok v, s')) :
    H.fails s.calls = false := by
  cases failed : H.fails s.calls with
  | false => rfl
  | true =>
    simp only [exec, failed, if_true] at made
    cases made

theorem through_missing {o : Op} {err : Error} (absent : isNotExist err = true)
    (made : exec H (.op o) s = (.error err, s')) : H.fails s.calls = false := by
  cases failed : H.fails s.calls with
  | false => rfl
  | true =>
    simp only [exec, failed, if_true] at made
    cases made
    cases absent

theorem unlinked_of_dir {d : Dir} (there : s.nodes p = some (.dir d)) : ¬ LinkAt s p := by
  rintro ⟨outside, linked⟩
  cases there.symm.trans linked

theorem straight_of_file {d : Dir} {f : File} (there : s.nodes p = some (.dir d))
    (found : d.get name = some (.file f)) : ¬ (LinkAt s p ∨ LinkIn s p name) := by
  rintro (linked | ⟨outside, linked⟩)
  · exact unlinked_of_dir there linked
  · rw [Fs.entryAt, dirAt_of_dir there, Option.bind_some, found] at linked
    cases linked

/-- What is seen behind a path that is no link is in a directory. -/
theorem dir_of_entry {entry : Entry} (unlinked : ¬ LinkAt s p)
    (found : s.entryAt p name = some entry) :
    ∃ d, s.nodes p = some (.dir d) ∧ d.get name = some entry := by
  cases placed : s.nodes p with
  | none => simp [Fs.entryAt, Fs.dirAt, placed] at found
  | some node =>
    cases node with
    | dir d => exact ⟨d, rfl, by rwa [Fs.entryAt, dirAt_of_dir placed, Option.bind_some] at found⟩
    | link outside => exact absurd ⟨outside, placed⟩ unlinked
    | file => simp [Fs.entryAt, Fs.dirAt, placed, Node.reach] at found

theorem lstatIn_made {info : Info} (made : exec H (.op (.lstatIn p name)) s = (.ok info, s')) :
    ∃ entry, s.entryAt p name = some entry ∧ info = entry.info := by
  have answer := (made_ok made).1
  simp only [act] at answer
  split at answer
  · cases answer
  · rename_i entry found
    cases answer
    exact ⟨entry, found, rfl⟩

end Calls

section Rules
variable {H : Host} {safeName : String} {s : Fs} {α : Type} {C : Call → Fs → Prop}
  {Q : α → Fs → Prop}

theorem goes_ret {a : α} (h : Q a s) : Goes (exec H) C (.ret a : Files α) s Q := ⟨trivial, h⟩

theorem goes_op {o : Op} {f : Except Error (Value o) → Files α} (here : C (.op o) s)
    (good : ∀ v s', exec H (.op o) s = (.ok v, s') → Goes (exec H) C (f (.ok v)) s' Q)
    (bad : ∀ err s', exec H (.op o) s = (.error err, s') → Goes (exec H) C (f (.error err)) s' Q) :
    Goes (exec H) C (os o >>= f) s Q := by
  refine goes_call here ?_
  generalize made : exec H (.op o) s = r
  obtain ⟨a, s'⟩ := r
  cases a with
  | error err => exact bad err s' made
  | ok v => exact good v s' made

theorem goes_range {values : List (String × FileMode)}
    {f : { order : List (String × FileMode) // order.Perm values } → Files α}
    (here : C (.range values) s)
    (next : ∀ order s', s'.nodes = s.nodes → s'.root = s.root → Goes (exec H) C (f order) s' Q) :
    Goes (exec H) C (range values >>= f) s Q := goes_call here (next _ _ rfl rfl)

theorem goes_now {f : Time → Files α} (here : C .now s)
    (next : ∀ time s', s'.nodes = s.nodes → s'.root = s.root → Goes (exec H) C (f time) s' Q) :
    Goes (exec H) C (now >>= f) s Q := goes_call here (next _ _ rfl rfl)

theorem goes_outcome {p : Files (Except Error α)} {Q : Except Error Unit → Fs → Prop}
    (h : Goes (exec H) C p s fun r s' => Q (r.map fun _ => ()) s') :
    Goes (exec H) C (outcome p) s Q := h.bind fun _ _ _ ends => goes_ret ends

/-- The calls that only look. -/
def Looks : Op → Prop
  | .lstatRoot | .mkdirAllBackup | .lstat _ | .statOpened _ | .closeFile _ _ => True
  | _ => False

theorem inside_of_looks {o : Op} (looks : Looks o) : Inside safeName (.op o) s := by
  cases o <;> first | exact looks.elim | exact ⟨fun linked => linked, fun _ used => used.elim⟩

/-- What no call of an inside run may use stays as it is. -/
theorem along_frame {p : Files α} {q : FileSystem.Path} (h : Along (exec H) (Inside safeName) p s)
    (away : ¬ Own safeName q) : (run (exec H) p s).2.nodes q = s.nodes q := by
  induction p generalizing s with
  | ret a => rfl
  | call e k ih =>
    refine (ih _ h.2).trans ?_
    cases e with
    | now => rfl
    | range values => rfl
    | op o =>
      refine exec_frame H o s fun touched => away (h.1.2 q ?_).2.1
      cases o <;> first | exact touched | exact touched.elim

end Rules

section Checks
variable {H : Host} {safeName : String} {s : Fs}

theorem ensureRoot_goes :
    Goes (exec H) (Inside safeName) ensureRoot s fun r s' =>
      s'.nodes = s.nodes ∧ s'.root = s.root ∧ (r = .ok () → s.root = some .dir) := by
  refine goes_op (inside_of_looks trivial) (fun info s₁ seen => ?_) fun err s₁ seen => ?_
  · have nodes := reads_nodes (fun _ => id) seen
    dsimp only
    split
    · exact goes_ret ⟨nodes, made_root seen, fun ok => by cases ok⟩
    · rename_i dir
      refine goes_ret ⟨nodes, made_root seen, fun _ => ?_⟩
      have answer := (made_ok seen).1
      simp only [act] at answer
      split at answer
      · cases answer
      · rename_i kind found
        cases answer
        rw [found, show kind = .dir from not_not.mp dir]
  · exact goes_ret ⟨reads_nodes (fun _ => id) seen, made_root seen, fun ok => by cases ok⟩

/-- A target is let through if it can be seen that it is no link. -/
structure Passed (H : Host) (p : FileSystem.Path) (s : Fs) : Prop where
  unlinked : ¬ LinkAt s p
  through : H.fails s.calls = false

theorem validateTarget_goes (p : FileSystem.Path) :
    Goes (exec H) (Inside safeName) (validateTarget p) s fun r s' =>
      s'.nodes = s.nodes ∧ s'.root = s.root ∧ s'.calls = s.calls + 1 ∧
        (r = .ok () → Passed H p s) := by
  refine goes_op (inside_of_looks trivial) (fun info s₁ seen => ?_) fun err s₁ seen => ?_
  · have nodes := reads_nodes (fun _ => id) seen
    obtain ⟨node, found, rfl⟩ := lstat_made seen
    dsimp only
    split
    · exact goes_ret ⟨nodes, made_root seen, made_calls seen, fun ok => nomatch ok⟩
    · rename_i other
      refine goes_ret ⟨nodes, made_root seen, made_calls seen, fun _ => ⟨?_, through_ok seen⟩⟩
      rintro ⟨outside, linked⟩
      cases found.symm.trans linked
      exact other rfl
  · have nodes := reads_nodes (fun _ => id) seen
    dsimp only
    split
    · rename_i missing
      refine goes_ret ⟨nodes, made_root seen, made_calls seen,
        fun _ => ⟨?_, through_missing missing seen⟩⟩
      rintro ⟨outside, linked⟩
      rw [lstat_missing missing seen] at linked
      cases linked
    · exact goes_ret ⟨nodes, made_root seen, made_calls seen, fun ok => nomatch ok⟩

theorem refused_of_nodes {err : Error} {s' : Fs} (same : s'.nodes = s.nodes) :
    Refused safeName s (.error err) s' := ⟨⟨err, rfl⟩, fun p _ _ => congrFun same p⟩

end Checks

section Unrooted
variable {H : Host} {safeName : String} {s : Fs}

theorem mode_of_offered {fileName : String} :
    fileName ∈ allowedFiles.map Prod.fst ↔ ∃ mode, allowedFiles.lookup fileName = some mode := by
  rw [← Option.isSome_iff_exists, List.lookup_isSome_iff, List.mem_map]
  constructor
  · rintro ⟨file, among, rfl⟩
    exact ⟨file, among, beq_self_eq_true _⟩
  · rintro ⟨file, among, same⟩
    exact ⟨file, among, (beq_iff_eq.mp same).symm⟩

theorem read_goes {fileName : String}
    (guard : s.root = some .dir ∨ ¬ Readable H safeName fileName s) :
    Goes (exec H) (Inside safeName) (CertificateFiles.read safeName fileName) s fun r s' =>
      s'.nodes = s.nodes ∧ ((∃ err, r = .error err) ∨ Readable H safeName fileName s) := by
  unfold CertificateFiles.read
  by_cases safe : safeDirectory safeName = true
  case neg =>
    rw [validateSafeDirectory, if_neg safe]
    exact goes_ret ⟨rfl, Or.inl ⟨_, rfl⟩⟩
  rw [validateSafeDirectory, if_pos safe]
  cases mode : allowedFiles.lookup fileName with
  | none => exact goes_ret ⟨rfl, Or.inl ⟨_, rfl⟩⟩
  | some mode' =>
    refine (validateTarget_goes _).bind fun r s₁ _ valid => ?_
    obtain ⟨nodes₁, root₁, calls₁, passed⟩ := valid
    cases r with
    | error err => exact goes_ret ⟨nodes₁, Or.inl ⟨_, rfl⟩⟩
    | ok _ =>
      obtain ⟨unlinked, first⟩ := passed rfl
      have unlinked₁ : ¬ LinkAt s₁ (targetOf safeName) := by
        unfold LinkAt
        rwa [nodes₁]
      refine goes_op ⟨unlinked₁, fun _ => False.elim⟩ (fun info s₂ seen => ?_) fun err s₂ seen => ?_
      · have nodes₂ := reads_nodes (fun _ => id) seen
        obtain ⟨entry, found, rfl⟩ := lstatIn_made seen
        dsimp only
        split
        · exact goes_ret ⟨nodes₂.trans nodes₁, Or.inl ⟨_, rfl⟩⟩
        rename_i regular
        obtain ⟨f, rfl⟩ := regular_file (not_not.mp regular)
        obtain ⟨d, there, held⟩ := dir_of_entry unlinked₁ found
        have readable : Readable H safeName fileName s :=
          { safe := safe
            offered := mode_of_offered.mpr ⟨mode', mode⟩
            file := ⟨d, f, nodes₁ ▸ there, held⟩
            first := first
            second := calls₁ ▸ through_ok seen }
        have real : s₂.root = some .dir := by
          rw [made_root seen, root₁]
          exact guard.resolve_right fun unreadable => unreadable readable
        rw [← nodes₂] at there
        refine goes_op ⟨straight_of_file there held, ?_⟩ (fun content s₃ opened => ?_)
          fun err s₃ opened => ?_
        · rintro p rfl
          exact ⟨safe, Or.inl rfl, fun _ => real⟩
        · have nodes₃ := reads_nodes (fun _ => id) opened
          exact goes_ret ⟨nodes₃.trans (nodes₂.trans nodes₁), Or.inr readable⟩
        · have nodes₃ := reads_nodes (fun _ => id) opened
          exact goes_ret ⟨nodes₃.trans (nodes₂.trans nodes₁), Or.inl ⟨_, rfl⟩⟩
      · have nodes₂ := reads_nodes (fun _ => id) seen
        exact goes_ret ⟨nodes₂.trans nodes₁, Or.inl ⟨_, rfl⟩⟩

/-- Below a root that is a file, `Lstat` does not say that nothing is there. -/
theorem parent_of_missing {p : FileSystem.Path} {err : Error} {s' : Fs} (inRoot : p.area = .root)
    (absent : isNotExist err = true) (made : exec H (.op (.lstat p)) s = (.error err, s')) :
    s.root ≠ some .regular := by
  intro regular
  have answer := missing_acted absent made
  simp only [act, lstat_missing absent made] at answer
  cases answer
  rw [missing, if_pos ⟨inRoot, regular⟩] at absent
  cases absent

theorem removeDirectory_goes (guard : s.root = some .dir ∨ ¬ Removable H safeName s) :
    Goes (exec H) (Inside safeName) (removeDirectory safeName) s fun r s' =>
      ((∃ err, r = .error err) ∧ s'.nodes = s.nodes) ∨ Removable H safeName s := by
  unfold removeDirectory
  by_cases safe : safeDirectory safeName = true
  case neg =>
    rw [validateSafeDirectory, if_neg safe]
    exact goes_ret (Or.inl ⟨⟨_, rfl⟩, rfl⟩)
  rw [validateSafeDirectory, if_pos safe]
  refine (validateTarget_goes _).bind fun r s₁ _ valid => ?_
  obtain ⟨nodes₁, root₁, calls₁, passed⟩ := valid
  cases r with
  | error err => exact goes_ret (Or.inl ⟨⟨_, rfl⟩, nodes₁⟩)
  | ok _ =>
    have first := (passed rfl).through
    refine goes_op (inside_of_looks trivial) (fun info s₂ seen => ?_) fun err s₂ seen => ?_
    · have nodes₂ := reads_nodes (fun _ => id) seen
      dsimp only
      split
      · exact goes_ret (Or.inl ⟨⟨_, rfl⟩, nodes₂.trans nodes₁⟩)
      rename_i dir
      obtain ⟨d, there⟩ := lstat_dir (not_not.mp dir) seen
      have removable : Removable H safeName s :=
        ⟨safe, Or.inr ⟨d, nodes₁ ▸ there⟩, first, calls₁ ▸ through_ok seen⟩
      have real : s₂.root = some .dir := by
        rw [made_root seen, root₁]
        exact guard.resolve_right fun stays => stays removable
      -- the tree is removed, by the last call
      refine ⟨⟨⟨id, ?_⟩, trivial⟩, Or.inr removable⟩
      rintro p rfl
      exact ⟨safe, Or.inl rfl, fun _ => real⟩
    · have nodes₂ := reads_nodes (fun _ => id) seen
      dsimp only
      split
      · rename_i absent
        have parent := parent_of_missing rfl absent seen
        rw [root₁] at parent
        refine goes_ret (Or.inr ⟨safe, Or.inl ⟨?_, parent⟩, first, ?_⟩)
        · rw [← nodes₁, lstat_missing absent seen]
        · rw [← calls₁, through_missing absent seen]
      · exact goes_ret (Or.inl ⟨⟨_, rfl⟩, nodes₂.trans nodes₁⟩)

end Unrooted

section Copies
variable {H : Host} {safeName : String} {s : Fs} {backup : FileSystem.Path} {d d' : Dir}

/-- A regular file of the target is read. -/
theorem inside_read {o : Op} {name : String} {f : File} (safe : safeDirectory safeName = true)
    (real : s.root = some .dir) (there : s.nodes (targetOf safeName) = some (.dir d))
    (found : d.get name = some (.file f))
    (reads : o = .readFile (targetOf safeName) name ∨ o = .openFile (targetOf safeName) name) :
    Inside safeName (.op o) s := by
  rcases reads with rfl | rfl
  · refine ⟨straight_of_file there found, ?_⟩
    rintro p rfl
    exact ⟨safe, Or.inl rfl, fun _ => real⟩
  · refine ⟨straight_of_file there found, ?_⟩
    rintro p rfl
    exact ⟨safe, Or.inl rfl, fun _ => real⟩

/-- A backup is written. -/
theorem inside_backup {o : Op} (safe : safeDirectory safeName = true)
    (outside : backup.area = .backup) (only : ∀ p, Uses o p → p = backup)
    (straight : ¬ FollowsLink s o) : Inside safeName (.op o) s := by
  refine ⟨straight, fun p used => ?_⟩
  cases only p used
  refine ⟨safe, Or.inr (Or.inr outside), fun inRoot => ?_⟩
  rw [outside] at inRoot
  cases inRoot

theorem copyFile_inside (safe : safeDirectory safeName = true) (outside : backup.area = .backup)
    {name : String} {mode : FileMode} (real : s.root = some .dir)
    (there : s.nodes (targetOf safeName) = some (.dir d))
    (started : s.nodes backup = some (.dir d')) :
    Goes (exec H) (Inside safeName) (copyFile (targetOf safeName) backup name mode) s
      fun _ _ => True := by
  refine goes_op ⟨unlinked_of_dir there, fun _ => False.elim⟩ (fun info s₁ seen => ?_)
    fun err s₁ _ => goes_ret trivial
  obtain ⟨entry, found, rfl⟩ := lstatIn_ok there seen
  have nodes₁ := reads_nodes (fun _ => id) seen
  dsimp only
  split
  · exact goes_ret trivial
  rename_i regular
  obtain ⟨f, rfl⟩ := regular_file (not_not.mp regular)
  rw [← nodes₁] at there
  have real₁ : s₁.root = some .dir := by rw [made_root seen, real]
  refine goes_op (inside_read safe real₁ there found (Or.inr rfl)) (fun input s₂ opened => ?_)
    fun err s₂ _ => goes_ret trivial
  obtain rfl := openFile_ok there found opened
  have nodes₂ := (reads_nodes (fun _ => id) opened).trans nodes₁
  refine goes_op (inside_of_looks trivial) (fun openedInfo s₃ stated => ?_)
    fun err s₃ _ => goes_ret trivial
  have nodes₃ := (reads_nodes (fun _ => id) stated).trans nodes₂
  have started₃ : s₃.nodes backup = some (.dir d') := by rw [nodes₃, started]
  dsimp only
  split
  · exact goes_ret trivial
  refine goes_op (inside_backup safe outside (fun _ => id) (unlinked_of_dir started₃))
    (fun _ s₄ created => ?_) fun err s₄ _ => goes_ret trivial
  obtain ⟨-, g, started₄⟩ := createFile_ok started₃ created
  have straight := straight_of_file started₄ (by rw [Dir.get_put, if_pos rfl])
  refine goes_op (inside_backup safe outside (fun _ => id) straight) (fun _ s₅ _ => ?_)
    fun err s₅ _ => ?_
  · exact goes_op (inside_of_looks trivial) (fun _ s₆ _ => goes_ret trivial)
      fun err s₆ _ => goes_ret trivial
  · exact goes_op (inside_of_looks trivial) (fun _ s₆ _ => goes_ret trivial)
      fun err s₆ _ => goes_ret trivial

theorem target_ne_backup (outside : backup.area = .backup) : targetOf safeName ≠ backup := by
  rintro rfl
  cases outside

theorem copyFiles_inside (safe : safeDirectory safeName = true) (outside : backup.area = .backup)
    {order : List (String × FileMode)} (real : s.root = some .dir)
    (there : s.nodes (targetOf safeName) = some (.dir d))
    (started : s.nodes backup = some (.dir d')) :
    Goes (exec H) (Inside safeName) (copyFiles (targetOf safeName) backup order) s
      fun _ _ => True := by
  induction order generalizing s d' with
  | nil => exact goes_ret trivial
  | cons file rest ih =>
    refine (copyFile_inside safe outside real there started).bind fun r s₁ ran _ => ?_
    cases r with
    | error err => exact goes_ret trivial
    | ok _ =>
      obtain ⟨there₁, -, -, -, -, -, d₁, started₁, -⟩ :=
        copyFile_ok (target_ne_backup outside) there started ran
      have root := @run_root H _ (copyFile (targetOf safeName) backup file.1 file.2) s
      rw [ran] at root
      exact ih (root.trans real) there₁ started₁

theorem copyMarker_inside (safe : safeDirectory safeName = true) (outside : backup.area = .backup)
    (plain : Plain d') (real : s.root = some .dir)
    (there : s.nodes (targetOf safeName) = some (.dir d))
    (started : s.nodes backup = some (.dir d')) :
    Goes (exec H) (Inside safeName) (copyMarker (targetOf safeName) backup) s fun _ _ => True := by
  refine goes_op ⟨unlinked_of_dir there, fun _ => False.elim⟩ (fun info s₁ seen => ?_)
    fun err s₁ _ => ?_
  · obtain ⟨entry, found, rfl⟩ := lstatIn_ok there seen
    have nodes₁ := reads_nodes (fun _ => id) seen
    dsimp only
    split
    · exact goes_ret trivial
    rename_i regular
    obtain ⟨f, rfl⟩ := regular_file (not_not.mp regular)
    rw [← nodes₁] at there started
    have real₁ : s₁.root = some .dir := by rw [made_root seen, real]
    refine goes_op (inside_read safe real₁ there found (Or.inl rfl)) (fun content s₂ read => ?_)
      fun err s₂ _ => goes_ret trivial
    have nodes₂ := reads_nodes (fun _ => id) read
    rw [← nodes₂] at started
    refine ⟨⟨inside_backup safe outside (fun _ => id) ?_, trivial⟩, trivial⟩
    rintro (linked | ⟨leads, linked⟩)
    · exact unlinked_of_dir started linked
    · rw [Fs.entryAt, dirAt_of_dir started, Option.bind_some] at linked
      obtain ⟨g, file⟩ := plain _ _ linked
      cases file
  · dsimp only
    split
    · exact goes_ret trivial
    · exact goes_ret trivial

theorem copyManagedDirectory_inside (safe : safeDirectory safeName = true)
    (outside : backup.area = .backup) (real : s.root = some .dir)
    (there : s.nodes (targetOf safeName) = some (.dir d)) :
    Goes (exec H) (Inside safeName) (copyManagedDirectory (targetOf safeName) backup) s
      fun _ _ => True := by
  have apart : targetOf safeName ≠ backup := target_ne_backup outside
  refine goes_op (inside_backup safe outside (fun _ => id) id) (fun _ s₁ made => ?_)
    fun err s₁ _ => goes_ret trivial
  obtain ⟨-, mode, started⟩ := mkdir_ok made
  have there₁ := source_stays apart there (fun _ => id) made
  have real₁ : s₁.root = some .dir := by rw [made_root made, real]
  have copied : Goes (exec H) (Inside safeName) (copyContents (targetOf safeName) backup) s₁
      fun _ _ => True := by
    refine goes_range trivial fun order s₂ nodes root => ?_
    rw [← nodes] at there₁ started
    rw [← root] at real₁
    refine (copyFiles_inside safe outside real₁ there₁ started).bind fun r s₃ ran _ => ?_
    cases r with
    | error err => exact goes_ret trivial
    | ok _ =>
      obtain ⟨there₃, d₃, started₃, grown, -, -⟩ := copyFiles_ok apart there₁ started ran
      have plain : Plain d₃ := grown.plain fun name entry found => nomatch found
      have root := @run_root H _ (copyFiles (targetOf safeName) backup order.1) s₂
      rw [ran] at root
      exact copyMarker_inside safe outside plain (root.trans real₁) there₃ started₃
  refine copied.bind fun r s₂ _ _ => ?_
  cases r with
  | ok _ => exact goes_ret trivial
  | error err =>
    exact goes_op (inside_backup safe outside (fun _ => id) id) (fun _ _ _ => goes_ret trivial)
      fun _ _ _ => goes_ret trivial

end Copies

section Rooted
variable {H : Host} {safeName : String} {s : Fs}

theorem collectAvailable_goes {order : List (String × FileMode)} {found : List String} {d : Dir}
    (there : s.nodes (targetOf safeName) = some (.dir d)) :
    Goes (exec H) (Inside safeName) (collectAvailable (targetOf safeName) order found) s fun r s' =>
      s'.nodes = s.nodes ∧ ((∃ err, r = .error err) ∨ ∀ file ∈ order, ∀ entry,
        d.get file.1 = some entry → ∃ f, entry = .file f) := by
  induction order generalizing s found with
  | nil => exact goes_ret ⟨rfl, Or.inr fun _ among => nomatch among⟩
  | cons file rest ih =>
    have step : ∀ {s₁ : Fs} {found' : List String}, s₁.nodes = s.nodes →
        (∀ entry, d.get file.1 = some entry → ∃ f, entry = .file f) →
        Goes (exec H) (Inside safeName) (collectAvailable (targetOf safeName) rest found') s₁
          fun r s' => s'.nodes = s.nodes ∧ ((∃ err, r = .error err) ∨ ∀ file' ∈ file :: rest,
            ∀ entry, d.get file'.1 = some entry → ∃ f, entry = .file f) := by
      intro s₁ found' nodes₁ here
      rw [← nodes₁] at there
      refine (ih there).mono fun r s' ends => ⟨ends.1.trans nodes₁, ends.2.imp_right fun later => ?_⟩
      exact List.forall_mem_cons.mpr ⟨here, later⟩
    refine goes_op ⟨unlinked_of_dir there, fun _ => False.elim⟩ (fun info s₁ seen => ?_)
      fun err s₁ seen => ?_
    · obtain ⟨entry, held, rfl⟩ := lstatIn_ok there seen
      have nodes₁ := reads_nodes (fun _ => id) seen
      dsimp only
      split
      · exact goes_ret ⟨nodes₁, Or.inl ⟨_, rfl⟩⟩
      · rename_i regular
        refine step nodes₁ fun entry' held' => ?_
        cases held.symm.trans held'
        exact regular_file (not_not.mp regular)
    · have nodes₁ := reads_nodes (fun _ => id) seen
      dsimp only
      split
      · rename_i missing
        refine step nodes₁ fun entry held => ?_
        have absent := lstatIn_missing missing seen
        rw [Fs.entryAt, dirAt_of_dir there, Option.bind_some, held] at absent
        cases absent
      · exact goes_ret ⟨nodes₁, Or.inl ⟨_, rfl⟩⟩

/-- A certificate without a directory is sound. -/
theorem sound_of_absent {op : Operation} (root : s.root = some .dir)
    (safe : safeDirectory safeName = true) (other : ∀ fileName, op ≠ .read fileName)
    (absent : s.nodes (targetOf safeName) = none) : Sound op safeName s where
  root := root
  safe := safe
  offered fileName same := absurd same (other fileName)
  target := Or.inl absent
  plain name _ entry found := by
    rw [Fs.entryAt, Fs.dirAt, absent] at found
    cases found

theorem sound_of_dir {op : Operation} {d : Dir} (root : s.root = some .dir)
    (safe : safeDirectory safeName = true) (other : ∀ fileName, op ≠ .read fileName)
    (there : s.nodes (targetOf safeName) = some (.dir d))
    (plain : ∀ name ∈ op.reads, ∀ entry, d.get name = some entry → ∃ f, entry = .file f) :
    Sound op safeName s where
  root := root
  safe := safe
  offered fileName same := absurd same (other fileName)
  target := Or.inr ⟨d, there⟩
  plain name among entry found := by
    rw [Fs.entryAt, dirAt_of_dir there, Option.bind_some] at found
    exact plain name among entry found

/-- A whole directory is sound for what copies it. -/
theorem sound_of_whole {op : Operation} {d : Dir} (root : s.root = some .dir)
    (safe : safeDirectory safeName = true) (other : ∀ fileName, op ≠ .read fileName)
    (reads : op.reads = marker :: allowedFiles.map Prod.fst)
    (there : s.nodes (targetOf safeName) = some (.dir d))
    (whole : Whole d) : Sound op safeName s := by
  refine sound_of_dir root safe other there fun name among entry found => ?_
  rw [reads] at among
  rcases List.mem_cons.mp among with rfl | listed
  · exact whole.marked entry found
  · obtain ⟨file, allowed, rfl⟩ := List.mem_map.mp listed
    obtain ⟨f, found'⟩ := whole.files file allowed
    cases found.symm.trans found'
    exact ⟨f, rfl⟩

theorem available_goes :
    Goes (exec H) (Inside safeName) (CertificateFiles.available safeName) s fun r s' =>
      s'.nodes = s.nodes ∧ ((∃ err, r = .error err) ∨ Sound .available safeName s) := by
  unfold CertificateFiles.available
  by_cases safe : safeDirectory safeName = true
  case neg =>
    rw [validateSafeDirectory, if_neg safe]
    exact goes_ret ⟨rfl, Or.inl ⟨_, rfl⟩⟩
  rw [validateSafeDirectory, if_pos safe]
  refine ensureRoot_goes.bind fun r s₁ _ rooted => ?_
  obtain ⟨nodes₁, root₁, real⟩ := rooted
  cases r with
  | error err => exact goes_ret ⟨nodes₁, Or.inl ⟨_, rfl⟩⟩
  | ok _ =>
    have real := real rfl
    refine (validateTarget_goes _).bind fun r s₂ _ valid => ?_
    have nodes₂ := valid.1.trans nodes₁
    cases r with
    | error err => exact goes_ret ⟨nodes₂, Or.inl ⟨_, rfl⟩⟩
    | ok _ =>
      refine goes_op (inside_of_looks trivial) (fun info s₃ seen => ?_) fun err s₃ seen => ?_
      · have nodes₃ := (reads_nodes (fun _ => id) seen).trans nodes₂
        dsimp only
        split
        · exact goes_ret ⟨nodes₃, Or.inl ⟨_, rfl⟩⟩
        rename_i dir
        obtain ⟨d, there⟩ := lstat_dir (not_not.mp dir) seen
        rw [nodes₂] at there
        refine goes_range trivial fun order s₄ nodes _ => ?_
        have nodes₄ := nodes.trans nodes₃
        refine (collectAvailable_goes (by rw [nodes₄, there])).mono fun r s' ends => ?_
        refine ⟨ends.1.trans nodes₄, ends.2.imp_right fun plain => ?_⟩
        refine sound_of_dir real safe (by simp) there fun name among => ?_
        obtain ⟨file, listed, rfl⟩ := List.mem_map.mp among
        exact plain file (order.2.mem_iff.mpr listed)
      · have nodes₃ := (reads_nodes (fun _ => id) seen).trans nodes₂
        dsimp only
        split
        · rename_i missing
          have absent := lstat_missing missing seen
          rw [nodes₂] at absent
          exact goes_ret ⟨nodes₃, Or.inr (sound_of_absent real safe (by simp) absent)⟩
        · exact goes_ret ⟨nodes₃, Or.inl ⟨_, rfl⟩⟩

theorem backup_goes :
    Goes (exec H) (Inside safeName) (CertificateFiles.backup safeName) s fun r s' =>
      (∀ p : FileSystem.Path, p.area = .root → s'.nodes p = s.nodes p) ∧
        ((∃ err, r.2 = .error err) ∨ Sound .backup safeName s) := by
  have still : ∀ {s' : Fs}, s'.nodes = s.nodes →
      ∀ p : FileSystem.Path, p.area = .root → s'.nodes p = s.nodes p :=
    fun same p _ => congrFun same p
  unfold CertificateFiles.backup
  by_cases safe : safeDirectory safeName = true
  case neg =>
    rw [validateSafeDirectory, if_neg safe]
    exact goes_ret ⟨still rfl, Or.inl ⟨_, rfl⟩⟩
  rw [validateSafeDirectory, if_pos safe]
  refine ensureRoot_goes.bind fun r s₁ _ rooted => ?_
  obtain ⟨nodes₁, root₁, real⟩ := rooted
  cases r with
  | error err => exact goes_ret ⟨still nodes₁, Or.inl ⟨_, rfl⟩⟩
  | ok _ =>
    have real := real rfl
    refine (validateTarget_goes _).bind fun r s₂ _ valid => ?_
    obtain ⟨nodes₂, root₂, -, -⟩ := valid
    rw [nodes₁] at nodes₂
    rw [root₁] at root₂
    cases r with
    | error err => exact goes_ret ⟨still nodes₂, Or.inl ⟨_, rfl⟩⟩
    | ok _ =>
      refine goes_op (inside_of_looks trivial) (fun info s₃ seen => ?_) fun err s₃ seen => ?_
      · have nodes₃ := (reads_nodes (fun _ => id) seen).trans nodes₂
        have root₃ := (made_root seen).trans root₂
        dsimp only
        split
        · exact goes_ret ⟨still nodes₃, Or.inl ⟨_, rfl⟩⟩
        rename_i dir
        obtain ⟨d, there⟩ := lstat_dir (not_not.mp dir) seen
        rw [nodes₂] at there
        refine goes_op (inside_of_looks trivial) (fun _ s₄ made => ?_) fun err s₄ made => ?_
        · have nodes₄ := (reads_nodes (fun _ => id) made).trans nodes₃
          have root₄ := (made_root made).trans root₃
          refine goes_now trivial fun time s₅ nodes root => ?_
          have nodes₅ := nodes.trans nodes₄
          have there₅ : s₅.nodes (targetOf safeName) = some (.dir d) := by rw [nodes₅, there]
          have real₅ : s₅.root = some .dir := by rw [root, root₄, real]
          refine (copyManagedDirectory_inside safe rfl real₅ there₅).bind fun r s₆ ran _ => ?_
          have frame : ∀ p : FileSystem.Path, p.area = .root → s₆.nodes p = s.nodes p := by
            intro p inRoot
            have away : p ≠ ⟨.backup, safeName ++ "-deleted-" ++ Timestamps.timestamp time⟩ := by
              rintro rfl
              cases inRoot
            have kept := @writes_frame H s₅ _ _ _ _
              (PublishProtocol.copyManagedDirectory_writes (targetOf safeName) _) away
            rw [ran, nodes₅] at kept
            exact kept
          cases r with
          | error err => exact goes_ret ⟨frame, Or.inl ⟨_, rfl⟩⟩
          | ok _ =>
            obtain ⟨-, d', -, snapshot⟩ := copyManagedDirectory_ok (target_ne_backup rfl) there₅ ran
            have whole := whole_of_complete snapshot.toComplete
            exact goes_ret ⟨frame, Or.inr (sound_of_whole real safe (by simp) rfl there whole)⟩
        · exact goes_ret ⟨still ((reads_nodes (fun _ => id) made).trans nodes₃), Or.inl ⟨_, rfl⟩⟩
      · have nodes₃ := (reads_nodes (fun _ => id) seen).trans nodes₂
        dsimp only
        split
        · rename_i missing
          have absent := lstat_missing missing seen
          rw [nodes₂] at absent
          exact goes_ret ⟨still nodes₃, Or.inr (sound_of_absent real safe (by simp) absent)⟩
        · exact goes_ret ⟨still nodes₃, Or.inl ⟨_, rfl⟩⟩

end Rooted

section Publications
variable {H : Host} {safeName : String} {payload : Payload} {s : Fs} {stage : FileSystem.Path}

/-- What the protocol allows below the root is inside. -/
theorem inside_of_permitted {old : Option Node} {since : Nat} {q : Progress} {o : Op} {w : Fs}
    (safe : safeDirectory safeName = true) (real : w.root = some .dir)
    (acts : PublishProtocol.Op.actsOnRoot o = true)
    (allowed : PublishProtocol.allows safeName payload q (.op o))
    (agrees : Agrees H safeName payload old since q w) (named : Named safeName q) :
    Inside safeName (.op o) w := by
  have permitted := allowed acts
  have placed := agrees.2
  refine ⟨?_, fun p used => ⟨safe, PublishProtocol.touches_own allowed named (p := p) ?_,
    fun _ => real⟩⟩
  · cases o with
    | chmodDir p =>
      cases q with
      | staging stage files =>
        obtain ⟨-, -, d, there, -⟩ := placed
        exact unlinked_of_dir ((show p = stage from permitted) ▸ there)
      | _ => exact permitted.elim
    | writeFile p name content mode | chmodFile p name mode =>
      cases q with
      | staging stage files =>
        obtain ⟨-, -, d, there, holds⟩ := placed
        obtain rfl : p = stage := permitted
        rintro (linked | ⟨leads, linked⟩)
        · exact unlinked_of_dir there linked
        · rw [Fs.entryAt, dirAt_of_dir there, Option.bind_some] at linked
          obtain ⟨f, file⟩ := holds.plain _ _ linked
          cases file
      | _ => exact permitted.elim
    | createFile p name mode | copyInto p name handle => cases q <;> exact permitted.elim
    | lstatIn p name | readFile p name | openFile p name => cases acts
    | _ => exact id
  · cases o <;> first | exact used | cases acts

theorem publish_root (safe : safeDirectory safeName = true) (real : s.root = some .dir) :
    Along (exec H) (fun e w => ¬ Quiet e → Inside safeName e w) (publish safeName payload) s := by
  refine along_of_follows (I := fun q w => Agrees H safeName payload (s.nodes (targetOf safeName))
    s.calls q w ∧ Named safeName q ∧ w.root = some .dir) ?_ ?_ PublishProtocol.publish_follows
    ⟨⟨le_rfl, rfl⟩, trivial, real⟩
  · rintro q e w allowed ⟨agrees, named, real⟩
    have honest := exec_honest H e w
    exact ⟨honest, PublishProtocol.agrees_call safe allowed agrees,
      PublishProtocol.named_note allowed honest named, by rw [exec_root, real]⟩
  · rintro q e w allowed ⟨agrees, named, real⟩ loud
    cases e with
    | now => trivial
    | range values => trivial
    | op o =>
      exact inside_of_permitted safe real (Bool.eq_true_of_not_eq_false loud) allowed agrees named

/-- What changes nothing below the root is inside. -/
def QuietInside (safeName : String) (e : Call) (s : Fs) : Prop := Quiet e → Inside safeName e s

theorem quietInside_of_acts {o : Op} (acts : PublishProtocol.Op.actsOnRoot o = true) :
    QuietInside safeName (.op o) s := by
  intro quiet
  rw [show PublishProtocol.Op.actsOnRoot o = false from quiet] at acts
  cases acts

theorem quietly {α : Type} {p : Files α} {Q : α → Fs → Prop}
    (h : Goes (exec H) (Inside safeName) p s Q) : Goes (exec H) (QuietInside safeName) p s Q :=
  ⟨h.1.mono fun _ _ inside _ => inside, h.2⟩

theorem writeFiles_quietly (inRoot : stage.area = .root) {order : List (String × FileMode)} :
    Goes (exec H) (QuietInside safeName) (writeFiles stage payload order) s fun _ _ => True := by
  induction order generalizing s with
  | nil => exact goes_ret trivial
  | cons file rest ih =>
    unfold writeFiles
    split
    · exact goes_ret trivial
    refine goes_op (quietInside_of_acts (by simp [PublishProtocol.Op.actsOnRoot, inRoot]))
      (fun _ s₁ _ => ?_) fun err s₁ _ => goes_ret trivial
    refine goes_op (quietInside_of_acts (by simp [PublishProtocol.Op.actsOnRoot, inRoot]))
      (fun _ s₂ _ => ?_) fun err s₂ _ => goes_ret trivial
    exact ih

theorem writeMarker_quietly (inRoot : stage.area = .root) :
    Goes (exec H) (QuietInside safeName) (writeMarker stage payload) s fun _ _ => True := by
  unfold writeMarker
  split
  · refine goes_now (fun _ => trivial) fun time s₁ _ _ => ?_
    exact goes_op (quietInside_of_acts (by simp [PublishProtocol.Op.actsOnRoot, inRoot]))
      (fun _ s₂ _ => goes_ret trivial) fun err s₂ _ => goes_ret trivial
  · exact goes_ret trivial

theorem replaceDirectory_quietly (safe : safeDirectory safeName = true) (real : s.root = some .dir)
    {d : Dir} (there : s.nodes (targetOf safeName) = some (.dir d)) :
    Goes (exec H) (QuietInside safeName) (replaceDirectory safeName stage) s fun _ _ => True := by
  refine goes_now (fun _ => trivial) fun time s₁ nodes₁ root₁ => ?_
  rw [← nodes₁] at there
  rw [← root₁] at real
  refine (quietly (copyManagedDirectory_inside safe (by rfl) real there)).bind fun r s₂ _ _ => ?_
  cases r with
  | error err => exact goes_ret trivial
  | ok _ =>
    refine goes_op (quietInside_of_acts rfl) (fun previous s₃ made => ?_)
      fun err s₃ _ => goes_ret trivial
    have inRoot : previous.area = .root := (mkdirTemp_made made).1.1
    refine goes_op (quietInside_of_acts (by simp [PublishProtocol.Op.actsOnRoot, inRoot]))
      (fun _ s₄ _ => ?_) fun err s₄ _ => goes_ret trivial
    refine goes_op (quietInside_of_acts rfl) (fun _ s₅ _ => ?_) fun err s₅ _ => goes_ret trivial
    refine goes_op (quietInside_of_acts rfl) (fun _ s₆ _ => ?_) fun err s₆ _ => ?_
    · exact goes_op (quietInside_of_acts (by simp [PublishProtocol.Op.actsOnRoot, inRoot]))
        (fun _ s₇ _ => goes_ret trivial) fun err s₇ _ => goes_ret trivial
    · exact goes_op (quietInside_of_acts rfl) (fun _ s₇ _ => goes_ret trivial)
        fun err s₇ _ => goes_ret trivial

theorem switchDirectory_quietly (safe : safeDirectory safeName = true) (real : s.root = some .dir) :
    Goes (exec H) (QuietInside safeName) (switchDirectory safeName stage) s fun _ _ => True := by
  refine (quietly (validateTarget_goes _)).bind fun r s₁ _ valid => ?_
  have root₁ := valid.2.1
  cases r with
  | error err => exact goes_ret trivial
  | ok _ =>
    refine goes_op (fun _ => inside_of_looks trivial) (fun info s₂ seen => ?_) fun err s₂ seen => ?_
    · dsimp only
      split
      · exact goes_ret trivial
      rename_i dir
      obtain ⟨d, there⟩ := lstat_dir (not_not.mp dir) seen
      rw [← reads_nodes (fun _ => id) seen] at there
      exact replaceDirectory_quietly safe (by rw [made_root seen, root₁, real]) there
    · dsimp only
      split
      · exact goes_op (quietInside_of_acts rfl) (fun _ s₃ _ => goes_ret trivial)
          fun err s₃ _ => goes_ret trivial
      · exact goes_ret trivial

theorem publishStaged_quietly (safe : safeDirectory safeName = true) (real : s.root = some .dir)
    (inRoot : stage.area = .root) :
    Goes (exec H) (QuietInside safeName) (publishStaged safeName payload stage) s
      fun _ _ => True := by
  refine goes_range (fun _ => trivial) fun order s₁ _ root₁ => ?_
  refine (writeFiles_quietly inRoot).bind fun r s₂ ran₂ _ => ?_
  have root₂ := @run_root H _ (writeFiles stage payload order.1) s₁
  rw [ran₂] at root₂
  cases r with
  | error err => exact goes_ret trivial
  | ok _ =>
    refine (writeMarker_quietly inRoot).bind fun r s₃ ran₃ _ => ?_
    have root₃ := @run_root H _ (writeMarker stage payload) s₂
    rw [ran₃] at root₃
    cases r with
    | error err => exact goes_ret trivial
    | ok _ =>
      exact switchDirectory_quietly safe (root₃.trans (root₂.trans (root₁.trans real)))

theorem publish_quietly (safe : safeDirectory safeName = true) (real : s.root = some .dir) :
    Goes (exec H) (QuietInside safeName) (publish safeName payload) s fun _ _ => True := by
  unfold publish
  rw [validateSafeDirectory, if_pos safe]
  refine (quietly ensureRoot_goes).bind fun r s₁ _ rooted => ?_
  have root₁ := rooted.2.1
  cases r with
  | error err => exact goes_ret trivial
  | ok _ =>
    refine goes_op (fun _ => inside_of_looks trivial) (fun _ s₂ made₂ => ?_)
      fun err s₂ _ => goes_ret trivial
    refine goes_op (quietInside_of_acts rfl) (fun stage s₃ made₃ => ?_)
      fun err s₃ _ => goes_ret trivial
    have inRoot : stage.area = .root := (mkdirTemp_made made₃).1.1
    refine goes_op (quietInside_of_acts (by simp [PublishProtocol.Op.actsOnRoot, inRoot]))
      (fun _ s₄ made₄ => ?_) fun err s₄ _ => ?_
    · have real₄ : s₄.root = some .dir := by
        rw [made_root made₄, made_root made₃, made_root made₂, root₁, real]
      refine (publishStaged_quietly safe real₄ inRoot).bind fun r s₅ _ _ => ?_
      cases r with
      | ok target => exact goes_ret trivial
      | error err =>
        exact goes_op (quietInside_of_acts (by simp [PublishProtocol.Op.actsOnRoot, inRoot]))
          (fun _ s₆ _ => goes_ret trivial) fun _ s₆ _ => goes_ret trivial
    · exact goes_op (quietInside_of_acts (by simp [PublishProtocol.Op.actsOnRoot, inRoot]))
        (fun _ s₅ _ => goes_ret trivial) fun _ s₅ _ => goes_ret trivial

theorem publish_inside (safe : safeDirectory safeName = true) (real : s.root = some .dir) :
    Along (exec H) (Inside safeName) (publish safeName payload) s := by
  refine ((publish_root safe real).and (publish_quietly safe real).1).mono fun e w both => ?_
  by_cases quiet : Quiet e
  · exact both.2 quiet
  · exact both.1 quiet

theorem publish_goes :
    Goes (exec H) (Inside safeName) (publish safeName payload) s fun r s' =>
      ¬ Sound (.publish payload) safeName s → Refused safeName s (r.map fun _ => ()) s' := by
  by_cases safe : safeDirectory safeName = true
  case neg =>
    obtain ⟨err, stopped⟩ := PublishProtocol.publish_unsafe safeName payload safe
    rw [stopped]
    exact goes_ret fun _ => refused_of_nodes rfl
  by_cases real : s.root = some .dir
  case neg =>
    unfold publish
    rw [validateSafeDirectory, if_pos safe]
    refine ensureRoot_goes.bind fun r s₁ _ rooted => ?_
    cases r with
    | error err => exact goes_ret fun _ => refused_of_nodes rooted.1
    | ok _ => exact absurd (rooted.2.2 rfl) real
  have inside := @publish_inside H _ payload _ safe real
  refine ⟨inside, fun unsound => ?_⟩
  have unsaved : ∀ s' backup, ¬ Saved safeName s s' backup := by
    rintro s' backup ⟨d, d', there, -, -, -, snapshot⟩
    have whole := whole_of_complete snapshot.toComplete
    exact unsound (sound_of_whole real safe (by simp) rfl there whole)
  have ends := @publish_end H _ payload s safe
  have frame := fun q => @along_frame H safeName s _ _ q inside
  generalize run (exec H) (publish safeName payload) s = r at ends frame ⊢
  obtain ⟨r, s'⟩ := r
  cases ends with
  | failed left =>
    refine ⟨⟨_, rfl⟩, fun p inRoot shown => ?_⟩
    by_cases same : p = targetOf safeName
    · subst same
      rcases left.target with kept | ⟨-, backup, saved⟩
      · exact kept
      · exact absurd saved (unsaved _ _)
    · refine frame p ?_
      rintro (own | hidden | outside)
      · exact same own
      · exact shown hidden
      · rw [inRoot] at outside
        cases outside
  | done settled =>
    rcases settled with ⟨absent, -⟩ | ⟨backup, saved, -⟩
    · exact absurd (sound_of_absent real safe (by simp) absent) unsound
    · exact absurd saved (unsaved _ _)

end Publications

section Operations
variable {H : Host} {safeName : String} {s : Fs}

theorem validateTarget_found {p : FileSystem.Path} {d : Dir} (through : H.fails s.calls = false)
    (there : s.nodes p = some (.dir d)) :
    run (exec H) (validateTarget p) s = (.ok (), s.tick) := by
  simp [validateTarget, exec, through, act, there, Node.info]

theorem validateTarget_absent {p : FileSystem.Path} (through : H.fails s.calls = false)
    (absent : s.nodes p = none) (parent : s.root ≠ some .regular) :
    run (exec H) (validateTarget p) s = (.ok (), s.tick) := by
  simp [validateTarget, exec, through, act, absent, missing, parent, notExist, isNotExist]

theorem read_contained {fileName : String}
    (guard : s.root = some .dir ∨ ¬ Readable H safeName fileName s) :
    Contained H (.read fileName) safeName s := by
  refine goes_outcome ((read_goes guard).mono fun r s' ends unsound => ?_)
  rcases ends.2 with ⟨err, rfl⟩ | readable
  · exact refused_of_nodes ends.1
  · obtain ⟨d, f, there, held⟩ := readable.file
    refine absurd ⟨guard.resolve_right fun unreadable => unreadable readable, readable.safe,
      ?_, Or.inr ⟨d, there⟩, ?_⟩ unsound
    · rintro other ⟨⟩
      exact readable.offered
    · intro name among entry found
      rw [List.mem_singleton.mp among, Fs.entryAt, dirAt_of_dir there, Option.bind_some, held] at found
      exact ⟨f, (Option.some.inj found).symm⟩

theorem remove_contained (guard : s.root = some .dir ∨ ¬ Removable H safeName s) :
    Contained H .remove safeName s := by
  refine (removeDirectory_goes guard).mono fun r s' ends unsound => ?_
  rcases ends with ⟨⟨err, rfl⟩, nodes⟩ | removable
  · exact refused_of_nodes nodes
  · refine absurd ⟨guard.resolve_right fun stays => stays removable, removable.safe,
      ?_, ?_, ?_⟩ unsound
    · rintro other ⟨⟩
    · exact removable.placed.imp_left And.left
    · rintro name ⟨⟩

/-- Through a root that is not real, a readable file is read. -/
theorem guarded_of_read {fileName : String} (contained : Contained H (.read fileName) safeName s) :
    s.root = some .dir ∨ ¬ Readable H safeName fileName s := by
  refine or_iff_not_imp_right.mpr fun readable => ?_
  obtain ⟨safe, offered, ⟨d, f, there, held⟩, first, second⟩ := not_not.mp readable
  obtain ⟨mode, listed⟩ := mode_of_offered.mp offered
  have along : Along (exec H) (Inside safeName) (CertificateFiles.read safeName fileName) s :=
    (along_bind.mp contained.1).1
  unfold CertificateFiles.read at along
  rw [validateSafeDirectory, if_pos safe, listed] at along
  have after := (along_bind.mp along).2
  rw [validateTarget_found first there] at after
  have there' : s.tick.nodes (targetOf safeName) = some (.dir d) := there
  have seen : (exec H (.op (.lstatIn (targetOf safeName) fileName)) s.tick) =
      (.ok (Entry.file f).info, s.tick.tick) := by
    simp [exec, second, act, Fs.entryAt, dirAt_of_dir there', held]
  have opens := after.2
  rw [seen] at opens
  exact (opens.1.2 _ rfl).2.2 rfl

/-- Through such a root, a directory is removed, and nothing is taken for a removal. -/
theorem guarded_of_remove (contained : Contained H .remove safeName s) :
    s.root = some .dir ∨ ¬ Removable H safeName s := by
  refine or_iff_not_imp_right.mpr fun removable => ?_
  obtain ⟨safe, placed, first, second⟩ := not_not.mp removable
  obtain ⟨along, ends⟩ := contained
  change Along (exec H) (Inside safeName) (removeDirectory safeName) s at along
  change Yields (exec H) (removeDirectory safeName) s _ at ends
  unfold removeDirectory at along ends
  rw [validateSafeDirectory, if_pos safe] at along ends
  rcases placed with ⟨absent, parent⟩ | ⟨d, there⟩
  · have seen : (exec H (.op (.lstat (targetOf safeName))) s.tick) = (.error notExist, s.tick.tick) := by
      have parent' : s.tick.root ≠ some .regular := parent
      simp [exec, second, act, absent, missing, parent']
    have ended := yields_bind.mp ends
    unfold Yields at ended
    rw [validateTarget_absent first absent parent] at ended
    dsimp only at ended
    rw [Prog.perform_bind, run_call, seen] at ended
    by_contra unreal
    obtain ⟨⟨err, refused⟩, -⟩ := ended fun sound => unreal sound.root
    cases refused
  · have there' : s.tick.nodes (targetOf safeName) = some (.dir d) := there
    have seen : (exec H (.op (.lstat (targetOf safeName))) s.tick) =
        (.ok (Node.dir d).info, s.tick.tick) := by
      simp [exec, second, act, there']
    have after := (along_bind.mp along).2
    rw [validateTarget_found first there] at after
    have removes := after.2
    rw [seen] at removes
    exact (removes.1.2 _ rfl).2.2 rfl

/-- The publisher keeps to its root exactly where `Read` and `Remove` find the root real, or
are stopped by their other checks. -/
theorem contained_iff (H : Host) (op : Operation) (safeName : String) (s : Fs) :
    Contained H op safeName s ↔ Guarded H op safeName s := by
  cases op with
  | publish payload => exact iff_of_true (goes_outcome publish_goes) trivial
  | read fileName => exact ⟨guarded_of_read, read_contained⟩
  | backup =>
    refine iff_of_true (backup_goes.bind fun r s' _ ends => goes_ret fun unsound => ?_) trivial
    obtain ⟨err, refused⟩ := ends.2.resolve_right unsound
    exact ⟨⟨err, refused⟩, fun p inRoot _ => ends.1 p inRoot⟩
  | available =>
    refine iff_of_true (goes_outcome (available_goes.mono fun r s' ends unsound => ?_)) trivial
    obtain ⟨err, rfl⟩ := ends.2.resolve_right unsound
    exact refused_of_nodes ends.1
  | remove => exact ⟨guarded_of_remove, remove_contained⟩

end Operations

/-- The disk with one published certificate, below a root that is a link. -/
def linkedDisk : Fs := { sampleDisk with root := some .link }

/-- The private key is read, and the directory removed, where the link leads. -/
theorem linked_root_left :
    (run (exec calmHost) (CertificateFiles.read "example-com" "privkey.pem") linkedDisk).1.toOption =
        some (.bytes [1], 0o600) ∧
      linkedDisk.nodes (targetOf "example-com") = some (.dir sampleDirectory) ∧
      (run (exec calmHost) (removeDirectory "example-com") linkedDisk).2.nodes
        (targetOf "example-com") = none ∧
      ¬ ∀ (H : Host) (op : Operation) (safeName : String) (s : Fs), Contained H op safeName s := by
  refine ⟨by decide +kernel, rfl, by decide +kernel, fun claim => ?_⟩
  rcases guarded_of_remove (claim calmHost .remove "example-com" linkedDisk) with real | stays
  · cases real
  · exact stays ⟨by decide +kernel, Or.inr ⟨sampleDirectory, rfl⟩, rfl, rfl⟩

end PublisherRoot
