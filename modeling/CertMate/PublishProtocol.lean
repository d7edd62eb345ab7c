import CertMate.CertificateFiles

/-!
# The stage, the switch and the way back

How far a `Publish` has come can be read off the answers it was given. Here are
the steps that may follow, and what the disk holds after each of them.
-/
namespace PublishProtocol
open CertificateModel DomainValidation FileSystem CallTrees CertificateFiles

/-- What was put into a directory under each name; the mode is known once it
has been set. -/
abbrev Staged := String → Option (Content × Option FileMode)

inductive Progress where
  | checking
  | staging (stage : Path) (files : Staged)
  | swapping (stage : Path) (files : Staged) (previous : Path)
  | ready (stage : Path) (files : Staged) (previous : Path)
  | retired (stage : Path) (files : Staged) (previous : Path)
  | stranded (previous : Path)
  | released
  | restored
  | lost
  | spoiled

def Op.actsOnRoot : Op → Bool
  | .mkdirTemp _ | .rename _ _ _ => true
  | .mkdir p | .chmodDir p | .remove p | .removeAll p => p.area = .root
  | .writeFile p _ _ _ | .chmodFile p _ _ | .createFile p _ _ | .copyInto p _ _ => p.area = .root
  | _ => false

/-- A call that changes nothing below the certificate root. -/
def Quiet : Call → Prop
  | .op o => Op.actsOnRoot o = false
  | _ => True

def Hidden (safeName : String) (p : Path) : Prop :=
  p.area = .root ∧ ∃ rest, p.name = hiddenPrefix safeName ++ rest

/-- The new directory, as the payload describes it. -/
structure Complete (payload : Payload) (files : Staged) : Prop where
  allowed : ∀ name mode, (name, mode) ∈ allowedFiles →
    files name = some (payload.value name, some mode)
  marked : payload.createMarker = true → ∃ time, files marker = some (.renewedAt time, none)
  unmarked : payload.createMarker = false → files marker = none
  nothingElse : ∀ name, name ∉ allowedFiles.map Prod.fst → name ≠ marker → files name = none

structure Holds (d : Dir) (files : Staged) : Prop where
  absent : ∀ name, files name = none → d.get name = none
  present : ∀ name content mode, files name = some (content, mode) →
    ∃ f, d.get name = some (.file f) ∧ f.content = content ∧ ∀ m, mode = some m → f.mode = m

section Steps
variable (safeName : String) (payload : Payload)

/-- The calls on the root that may come next. -/
def permitted : Progress → Op → Prop
  | .checking, .mkdirTemp namePrefix => namePrefix = stagePrefix safeName
  | .staging stage _, .chmodDir p => p = stage
  | .staging stage _, .remove p => p = stage
  | .staging stage _, .writeFile p _ _ _ => p = stage
  | .staging stage _, .chmodFile p _ _ => p = stage
  | .staging _ _, .mkdirTemp namePrefix => namePrefix = previousPrefix safeName
  | .staging stage files, .rename why source target =>
    why = .release ∧ source = stage ∧ target = targetOf safeName ∧ Complete payload files
  | .swapping _ _ previous, .remove p => p = previous
  | .ready _ files previous, .rename why source target =>
    why = .retire ∧ source = targetOf safeName ∧ target = previous ∧ Complete payload files
  | .retired stage files _, .rename why source target =>
    why = .release ∧ source = stage ∧ target = targetOf safeName ∧ Complete payload files
  | .stranded previous, .rename why source target =>
    why = .restore ∧ source = previous ∧ target = targetOf safeName
  | .retired _ _ _, .removeAll _ => False
  | .stranded _, .removeAll _ => False
  | _, .removeAll p => Hidden safeName p
  | _, _ => False

def allows (s : Progress) : Call → Prop
  | .op o => Op.actsOnRoot o = true → permitted safeName payload s o
  | _ => True

end Steps

/-- Where the answer to a call on the root leads. -/
def advance : Progress → (o : Op) → Except Error (Value o) → Progress
  | .checking, .mkdirTemp _, .ok stage => .staging stage fun _ => none
  | .staging stage files, .writeFile _ name content _, .ok () =>
    .staging stage (Function.update files name (some (content, none)))
  | .staging _ _, .writeFile _ _ _ _, .error _ => .spoiled
  | .staging stage files, .chmodFile _ name mode, .ok () =>
    .staging stage (Function.update files name ((files name).map fun file => (file.1, some mode)))
  | .staging _ _, .remove _, _ => .spoiled
  | .staging stage files, .mkdirTemp _, .ok previous => .swapping stage files previous
  | .staging _ _, .rename _ _ _, .ok () => .released
  | .swapping stage files previous, .remove _, .ok () => .ready stage files previous
  | .ready stage files previous, .rename _ _ _, .ok () => .retired stage files previous
  | .retired _ _ _, .rename _ _ _, .ok () => .released
  | .retired _ _ previous, .rename _ _ _, .error _ => .stranded previous
  | .stranded _, .rename _ _ _, .ok () => .restored
  | .stranded _, .rename _ _ _, .error _ => .lost
  | .staging _ _, .removeAll _, _ => .spoiled
  | .swapping _ _ _, .removeAll _, _ => .spoiled
  | .ready _ _ _, .removeAll _, _ => .spoiled
  | s, _, _ => s

def note (s : Progress) : (e : Call) → Answer e → Progress
  | .op o, r => if Op.actsOnRoot o then advance s o r else s
  | _, _ => s

/-- A name that `MkdirTemp` returns starts with the prefix it was given. -/
def Honest : (e : Call) → Answer e → Prop
  | .op (.mkdirTemp namePrefix), .ok p => p.area = .root ∧ ∃ rest, p.name = namePrefix ++ rest
  | _, _ => True

theorem exec_honest (H : Host) (e : Call) (w : Fs) : Honest e (exec H e w).1 := by
  cases e with
  | now => trivial
  | range values => trivial
  | op o =>
    cases o <;> try trivial
    rename_i namePrefix
    simp only [exec]
    split
    · trivial
    · simp only [act]
      split
      · split
        · trivial
        · rename_i name found
          obtain ⟨k, -, rfl⟩ := List.mem_map.mp (List.mem_of_find?_eq_some found)
          exact ⟨rfl, _, rfl⟩
      · trivial

theorem ensureRoot_quiet : Only Honest Quiet ensureRoot := by
  refine only_call.mpr ⟨rfl, fun r _ => ?_⟩
  cases r with
  | error err => trivial
  | ok info => dsimp only; split <;> trivial

theorem validateTarget_quiet (target : Path) : Only Honest Quiet (validateTarget target) := by
  refine only_call.mpr ⟨rfl, fun r _ => ?_⟩
  cases r with
  | error err => dsimp only; split <;> trivial
  | ok info => dsimp only; split <;> trivial

/-- A call that changes this directory alone, if any. -/
def Writes (p : Path) : Call → Prop
  | .op (.rename _ _ _) => False
  | .op o => ∀ q, Touches o q → q = p
  | _ => True

theorem quiet_of_writes {p : Path} (outside : p.area = .backup) {e : Call} (h : Writes p e) :
    Quiet e := by
  cases e with
  | now => trivial
  | range values => trivial
  | op o =>
    cases o with
    | rename why source target => exact h.elim
    | mkdirTemp namePrefix =>
      have named := h ⟨.root, namePrefix⟩ ⟨rfl, "", (String.append_empty).symm⟩
      rw [← named] at outside
      cases outside
    | mkdir q | chmodDir q | remove q | removeAll q | writeFile q _ _ _ | chmodFile q _ _ | createFile q _ _
      | copyInto q _ _ =>
      cases h q rfl
      simp [Quiet, Op.actsOnRoot, outside]
    | _ => rfl

section Copies
variable (source target : Path)

theorem copyFile_writes (name : String) (mode : FileMode) :
    Only Honest (Writes target) (copyFile source target name mode) := by
  refine only_call.mpr ⟨fun _ => False.elim, fun r _ => ?_⟩
  cases r with
  | error err => trivial
  | ok info =>
    dsimp only
    split
    · trivial
    refine only_call.mpr ⟨fun _ => False.elim, fun r _ => ?_⟩
    cases r with
    | error err => trivial
    | ok input =>
      refine only_call.mpr ⟨fun _ => False.elim, fun r _ => ?_⟩
      cases r with
      | error err => trivial
      | ok openedInfo =>
        dsimp only
        split
        · trivial
        refine only_call.mpr ⟨fun _ => id, fun r _ => ?_⟩
        cases r with
        | error err => trivial
        | ok _ =>
          refine only_call.mpr ⟨fun _ => id, fun copied _ => ?_⟩
          refine only_call.mpr ⟨fun _ => False.elim, fun closed _ => ?_⟩
          cases copied with
          | error err => trivial
          | ok _ => cases closed <;> trivial

theorem copyFiles_writes (order : List (String × FileMode)) :
    Only Honest (Writes target) (copyFiles source target order) := by
  induction order with
  | nil => trivial
  | cons file rest ih =>
    refine only_bind (copyFile_writes source target file.1 file.2) fun r => ?_
    cases r with
    | error err => trivial
    | ok _ => exact ih

theorem copyMarker_writes : Only Honest (Writes target) (copyMarker source target) := by
  refine only_call.mpr ⟨fun _ => False.elim, fun r _ => ?_⟩
  cases r with
  | error err => dsimp only; split <;> trivial
  | ok info =>
    dsimp only
    split
    · trivial
    refine only_call.mpr ⟨fun _ => False.elim, fun r _ => ?_⟩
    cases r with
    | error err => trivial
    | ok content => exact ⟨fun _ => id, fun _ _ => trivial⟩

theorem copyManagedDirectory_writes :
    Only Honest (Writes target) (copyManagedDirectory source target) := by
  refine only_call.mpr ⟨fun _ => id, fun r _ => ?_⟩
  cases r with
  | error err => trivial
  | ok _ =>
    refine only_bind ?_ fun r => ?_
    · refine only_call.mpr ⟨trivial, fun order _ => ?_⟩
      refine only_bind (copyFiles_writes source target order.1) fun r => ?_
      cases r with
      | error err => trivial
      | ok _ => exact copyMarker_writes source target
    · cases r with
      | ok _ => trivial
      | error err => exact only_call.mpr ⟨fun _ => id, fun _ _ => trivial⟩

end Copies

theorem copyManagedDirectory_quiet {target : Path} (outside : target.area = .backup)
    (source : Path) : Only Honest Quiet (copyManagedDirectory source target) :=
  (copyManagedDirectory_writes source target).mono fun _ => quiet_of_writes outside

theorem read_quiet (safeName fileName : String) : Only Honest Quiet
    (CertificateFiles.read safeName fileName) := by
  unfold CertificateFiles.read
  split
  · trivial
  split
  · trivial
  refine only_bind (validateTarget_quiet _) fun r => ?_
  cases r with
  | error err => trivial
  | ok _ =>
    refine only_call.mpr ⟨rfl, fun r _ => ?_⟩
    cases r with
    | error err => trivial
    | ok info =>
      dsimp only
      split
      · trivial
      refine only_call.mpr ⟨rfl, fun r _ => ?_⟩
      cases r <;> trivial

theorem backup_quiet (safeName : String) : Only Honest Quiet (backup safeName) := by
  unfold backup
  split
  · trivial
  refine only_bind ensureRoot_quiet fun r => ?_
  cases r with
  | error err => trivial
  | ok _ =>
    refine only_bind (validateTarget_quiet _) fun r => ?_
    cases r with
    | error err => trivial
    | ok _ =>
      refine only_call.mpr ⟨rfl, fun r _ => ?_⟩
      cases r with
      | error err => dsimp only; split <;> trivial
      | ok info =>
        dsimp only
        split
        · trivial
        refine only_call.mpr ⟨rfl, fun r _ => ?_⟩
        cases r with
        | error err => trivial
        | ok _ =>
          refine only_call.mpr ⟨trivial, fun time _ => ?_⟩
          refine only_bind (copyManagedDirectory_quiet rfl _) fun r => ?_
          cases r <;> trivial

theorem collectAvailable_quiet (target : Path) (order : List (String × FileMode))
    (found : List String) : Only Honest Quiet (collectAvailable target order found) := by
  induction order generalizing found with
  | nil => trivial
  | cons file rest ih =>
    refine only_call.mpr ⟨rfl, fun r _ => ?_⟩
    cases r with
    | error err =>
      dsimp only
      split
      · exact ih found
      · trivial
    | ok info =>
      dsimp only
      split
      · trivial
      · exact ih _

theorem available_quiet (safeName : String) : Only Honest Quiet (available safeName) := by
  unfold available
  split
  · trivial
  refine only_bind ensureRoot_quiet fun r => ?_
  cases r with
  | error err => trivial
  | ok _ =>
    refine only_bind (validateTarget_quiet _) fun r => ?_
    cases r with
    | error err => trivial
    | ok _ =>
      refine only_call.mpr ⟨rfl, fun r _ => ?_⟩
      cases r with
      | error err => dsimp only; split <;> trivial
      | ok info =>
        dsimp only
        split
        · trivial
        · exact only_call.mpr ⟨trivial, fun order _ => collectAvailable_quiet _ _ _⟩

/-- What the loop of `Publish` adds to the stage. -/
def written (payload : Payload) : List (String × FileMode) → Staged → Staged
  | [], files => files
  | (name, mode) :: rest, files =>
    written payload rest (Function.update files name (some (payload.value name, some mode)))

theorem written_other {payload : Payload} {order : List (String × FileMode)} {files : Staged}
    {name : String} (h : name ∉ order.map Prod.fst) :
    written payload order files name = files name := by
  induction order generalizing files with
  | nil => rfl
  | cons file rest ih =>
    rw [List.map_cons, List.mem_cons, not_or] at h
    rw [written, ih h.2]
    exact Function.update_of_ne h.1 _ _

theorem written_mem {payload : Payload} {order : List (String × FileMode)} {files : Staged}
    (unique : (order.map Prod.fst).Nodup) {name : String} {mode : FileMode}
    (h : (name, mode) ∈ order) :
    written payload order files name = some (payload.value name, some mode) := by
  induction order generalizing files with
  | nil => cases h
  | cons file rest ih =>
    rw [List.map_cons, List.nodup_cons] at unique
    rcases List.mem_cons.mp h with rfl | h
    · rw [written, written_other unique.1]
      exact Function.update_self _ _ _
    · exact ih unique.2 h

theorem allowedFiles_unique : (allowedFiles.map Prod.fst).Nodup := by decide

theorem marker_not_allowed : marker ∉ allowedFiles.map Prod.fst := by decide

section Publishing
variable {safeName : String} {payload : Payload}

theorem quiet_follows {α : Type} {p : Files α} (h : Only Honest Quiet p) (s : Progress) :
    Follows Honest (allows safeName payload) note p s fun _ s' => s' = s := by
  refine h.follows ?_ ?_ s
  · intro s e quiet
    cases e with
    | op o => intro acts; rw [show Op.actsOnRoot o = false from quiet] at acts; cases acts
    | now => trivial
    | range values => trivial
  · intro s e r quiet
    cases e with
    | op o => simp [note, show Op.actsOnRoot o = false from quiet]
    | now => rfl
    | range values => rfl

/-- An unfinished publication that may still remove its stage. -/
def Progress.Failed : Progress → Prop
  | .staging _ _ | .swapping _ _ _ | .ready _ _ _ | .restored | .lost | .spoiled => True
  | _ => False

theorem writeFiles_follows {stage : Path} (inRoot : stage.area = .root)
    (order : List (String × FileMode)) (files : Staged) :
    Follows Honest (allows safeName payload) note (writeFiles stage payload order)
      (.staging stage files) fun r s =>
        match r with
        | .ok () => s = .staging stage (written payload order files)
        | .error _ => s.Failed := by
  induction order generalizing files with
  | nil => rfl
  | cons file rest ih =>
    obtain ⟨name, mode⟩ := file
    unfold writeFiles
    split
    · trivial
    refine follows_call.mpr ⟨fun _ => rfl, fun r _ => ?_⟩
    cases r with
    | error err => simp [note, Op.actsOnRoot, inRoot, advance, Follows, Progress.Failed]
    | ok _ =>
      refine follows_call.mpr ⟨?_, fun r _ => ?_⟩
      · simp [note, Op.actsOnRoot, inRoot, advance, allows, permitted]
      · cases r with
        | error err => simp [note, Op.actsOnRoot, inRoot, advance, Follows, Progress.Failed]
        | ok _ => simpa [note, Op.actsOnRoot, inRoot, advance, written] using ih _

theorem writeMarker_follows {stage : Path} (inRoot : stage.area = .root) {files : Staged}
    (loaded : ∀ name mode, (name, mode) ∈ allowedFiles →
      files name = some (payload.value name, some mode))
    (nothingElse : ∀ name, name ∉ allowedFiles.map Prod.fst → files name = none) :
    Follows Honest (allows safeName payload) note (writeMarker stage payload)
      (.staging stage files) fun r s =>
        match r with
        | .ok () => ∃ files', Complete payload files' ∧ s = .staging stage files'
        | .error _ => s.Failed := by
  unfold writeMarker
  split
  · rename_i marked
    refine follows_call.mpr ⟨trivial, fun time _ => ?_⟩
    refine follows_call.mpr ⟨fun _ => rfl, fun r _ => ?_⟩
    cases r with
    | error err => simp [note, Op.actsOnRoot, inRoot, advance, Follows, Progress.Failed]
    | ok _ =>
      refine ⟨Function.update files marker (some (.renewedAt time, none)), ?_, ?_⟩
      · constructor
        · intro name mode h
          have hm : name ≠ marker := by
            rintro rfl
            exact marker_not_allowed (List.mem_map_of_mem (f := Prod.fst) h)
          rw [Function.update_of_ne hm]
          exact loaded name mode h
        · intro _
          exact ⟨time, Function.update_self _ _ _⟩
        · intro h
          rw [marked] at h
          cases h
        · intro name h hm
          rw [Function.update_of_ne hm]
          exact nothingElse name h
      · simp [note, Op.actsOnRoot, inRoot, advance]
  · rename_i unmarked
    refine ⟨files, ?_, rfl⟩
    constructor
    · exact loaded
    · intro h
      exact absurd h unmarked
    · intro _
      exact nothingElse _ marker_not_allowed
    · intro name h _
      exact nothingElse name h

theorem replaceDirectory_follows {stage : Path} {files : Staged}
    (complete : Complete payload files) :
    Follows Honest (allows safeName payload) note (replaceDirectory safeName stage)
      (.staging stage files) fun r s =>
        match r with
        | .ok target => target = targetOf safeName ∧ s = .released
        | .error _ => s.Failed := by
  refine follows_call.mpr ⟨trivial, fun time _ => ?_⟩
  refine (quiet_follows (copyManagedDirectory_quiet rfl _) _).bind fun r s hs => ?_
  subst s
  cases r with
  | error err => trivial
  | ok _ =>
    refine follows_call.mpr ⟨fun _ => rfl, fun r honest => ?_⟩
    cases r with
    | error err => trivial
    | ok previous =>
      obtain ⟨inRoot, rest, named⟩ := honest
      have hidden : Hidden safeName previous :=
        ⟨inRoot, "previous-" ++ rest, by rw [named, previousPrefix, String.append_assoc]⟩
      refine follows_call.mpr ⟨fun _ => rfl, fun r _ => ?_⟩
      cases r with
      | error err => simp [note, Op.actsOnRoot, inRoot, advance, Follows, Progress.Failed]
      | ok _ =>
        refine follows_call.mpr ⟨?_, fun r _ => ?_⟩
        · simp [note, Op.actsOnRoot, inRoot, advance, allows, permitted, complete]
        cases r with
        | error err => simp [note, Op.actsOnRoot, inRoot, advance, Follows, Progress.Failed]
        | ok _ =>
          refine follows_call.mpr ⟨?_, fun r _ => ?_⟩
          · simp [note, Op.actsOnRoot, inRoot, advance, allows, permitted, complete]
          cases r with
          | error err =>
            refine follows_call.mpr ⟨?_, fun r _ => ?_⟩
            · simp [note, Op.actsOnRoot, inRoot, advance, allows, permitted]
            · cases r <;> simp [note, Op.actsOnRoot, inRoot, advance, Follows, Progress.Failed]
          | ok _ =>
            refine follows_call.mpr ⟨?_, fun r _ => ?_⟩
            · simp [note, Op.actsOnRoot, inRoot, advance, allows, permitted, hidden]
            · simp [note, Op.actsOnRoot, inRoot, advance, Follows]

theorem switchDirectory_follows {stage : Path} {files : Staged}
    (complete : Complete payload files) :
    Follows Honest (allows safeName payload) note (switchDirectory safeName stage)
      (.staging stage files) fun r s =>
        match r with
        | .ok target => target = targetOf safeName ∧ s = .released
        | .error _ => s.Failed := by
  refine (quiet_follows (validateTarget_quiet _) _).bind fun r s hs => ?_
  subst s
  cases r with
  | error err => trivial
  | ok _ =>
    refine follows_call.mpr ⟨fun acts => (by cases acts), fun r _ => ?_⟩
    cases r with
    | ok info =>
      dsimp only
      split
      · trivial
      · exact replaceDirectory_follows complete
    | error statErr =>
      dsimp only
      split
      · refine follows_call.mpr ⟨fun _ => ⟨rfl, rfl, rfl, complete⟩, fun r _ => ?_⟩
        cases r with
        | error err => trivial
        | ok _ => exact ⟨rfl, rfl⟩
      · trivial

theorem publishStaged_follows {stage : Path} (inRoot : stage.area = .root) :
    Follows Honest (allows safeName payload) note (publishStaged safeName payload stage)
      (.staging stage fun _ => none) fun r s =>
        match r with
        | .ok target => target = targetOf safeName ∧ s = .released
        | .error _ => s.Failed := by
  refine follows_call.mpr ⟨trivial, fun order _ => ?_⟩
  obtain ⟨order, perm⟩ := order
  have names : (order.map Prod.fst).Perm (allowedFiles.map Prod.fst) := perm.map _
  refine (writeFiles_follows inRoot order _).bind fun r s hs => ?_
  cases r with
  | error err => exact hs
  | ok _ =>
    cases hs
    refine (writeMarker_follows inRoot ?_ ?_).bind fun r s hs => ?_
    · intro name mode h
      exact written_mem (names.nodup_iff.mpr allowedFiles_unique) (perm.mem_iff.mpr h)
    · intro name h
      exact written_other fun hm => h (names.mem_iff.mp hm)
    · cases r with
      | error err => exact hs
      | ok _ =>
        obtain ⟨files, complete, rfl⟩ := hs
        exact switchDirectory_follows complete

/-- A publication that is over has put the new directory in place if and only
if it returns no error. -/
def Over : Except Error Path → Progress → Prop
  | .ok target, s => target = targetOf safeName ∧ s = .released
  | .error _, s => s = .checking ∨ s = .spoiled ∨ s = .restored ∨ s = .lost

variable (safeName payload) in
/-- Nothing is published under a name that is not safe. -/
theorem publish_unsafe (unsafeName : ¬ safeDirectory safeName = true) :
    ∃ err, publish safeName payload = .ret (.error err) := by
  unfold publish
  rw [validateSafeDirectory, if_neg unsafeName]
  exact ⟨_, rfl⟩

theorem publish_follows :
    Follows Honest (allows safeName payload) note (publish safeName payload) .checking
      (@Over safeName) := by
  unfold publish
  split
  · exact Or.inl rfl
  refine (quiet_follows ensureRoot_quiet _).bind fun r s hs => ?_
  subst s
  cases r with
  | error err => exact Or.inl rfl
  | ok _ =>
    refine follows_call.mpr ⟨fun acts => (by cases acts), fun r _ => ?_⟩
    cases r with
    | error err => exact Or.inl rfl
    | ok _ =>
      refine follows_call.mpr ⟨fun _ => rfl, fun r honest => ?_⟩
      cases r with
      | error err => exact Or.inl rfl
      | ok stage =>
        obtain ⟨inRoot, rest, named⟩ := honest
        have hidden : Hidden safeName stage :=
          ⟨inRoot, "stage-" ++ rest, by rw [named, stagePrefix, String.append_assoc]⟩
        refine follows_call.mpr ⟨fun _ => rfl, fun r _ => ?_⟩
        cases r with
        | error err =>
          refine follows_call.mpr ⟨?_, fun r _ => ?_⟩
          · simp [note, Op.actsOnRoot, inRoot, advance, allows, permitted]
          · simp [note, Op.actsOnRoot, inRoot, advance, Follows, Over]
        | ok _ =>
          obtain ⟨area, name⟩ := stage
          cases inRoot
          change Follows Honest _ note (publishStaged safeName payload ⟨.root, name⟩ >>= _)
            (.staging ⟨.root, name⟩ fun _ => none) _
          refine (publishStaged_follows rfl).bind fun r s hs => ?_
          cases r with
          | ok target => exact hs
          | error err =>
            refine follows_call.mpr ⟨?_, fun r _ => ?_⟩
            · intro _
              cases s <;> first | exact hidden | exact hs.elim
            · cases s <;> first | exact hs.elim | simp [note, Op.actsOnRoot, advance, Follows, Over]

end Publishing

theorem hidden_ne_target {safeName other : String} {p : Path} (h : Hidden safeName p)
    (safe : safeDirectory other = true) : p ≠ targetOf other := by
  rintro rfl
  obtain ⟨-, rest, named⟩ := h
  have : other = "." ++ (safeName ++ "." ++ rest) := by
    simpa [targetOf, hiddenPrefix, String.append_assoc] using named
  rw [this, safeDirectory_not_hidden] at safe
  cases safe

/-- What a call may touch while it keeps to the protocol. -/
def Own (safeName : String) (p : Path) : Prop :=
  p = targetOf safeName ∨ Hidden safeName p ∨ p.area = .backup

theorem touches_backup {o : Op} (h : Op.actsOnRoot o = false) {p : Path} (touched : Touches o p) :
    p.area = .backup := by
  cases o with
  | mkdirTemp _ => cases h
  | rename _ _ _ => cases h
  | _ =>
    first
    | exact touched.elim
    | cases hp : p.area with
      | backup => rfl
      | root =>
        cases touched
        simp [Op.actsOnRoot, hp] at h

section Disk
variable (H : Host) (safeName : String) (payload : Payload) (old : Option Node) (since : Nat)

/-- The stage directory holds what the note says was put into it. -/
def StageAt (stage : Path) (files : Staged) (w : Fs) : Prop :=
  Hidden safeName stage ∧ ∃ d, w.nodes stage = some (.dir d) ∧ Holds d files

/-- The new directory is in place, complete. -/
def NewAt (w : Fs) : Prop :=
  ∃ d files, w.nodes (targetOf safeName) = some (.dir d) ∧ Holds d files ∧ Complete payload files

/-- `old` is what was at the target before; `since` counts the calls made by then. -/
def Placed : Progress → Fs → Prop
  | .checking, w => w.nodes (targetOf safeName) = old
  | .staging stage files, w =>
    w.nodes (targetOf safeName) = old ∧ StageAt safeName stage files w
  | .swapping stage files previous, w | .ready stage files previous, w =>
    w.nodes (targetOf safeName) = old ∧ StageAt safeName stage files w ∧
      Hidden safeName previous ∧ previous ≠ stage
  | .retired stage files previous, w =>
    w.nodes (targetOf safeName) = none ∧ StageAt safeName stage files w ∧
      Hidden safeName previous ∧ w.nodes previous = old ∧ old ≠ none
  | .stranded previous, w =>
    w.nodes (targetOf safeName) = none ∧ Hidden safeName previous ∧ w.nodes previous = old ∧
      old ≠ none ∧ ∃ i, since ≤ i ∧ i < w.calls ∧ H.fails i = true
  | .released, w => NewAt safeName payload w
  | .restored, w | .spoiled, w => w.nodes (targetOf safeName) = old
  | .lost, w =>
    w.nodes (targetOf safeName) = none ∧
      ∃ i j, since ≤ i ∧ i < j ∧ j < w.calls ∧ H.fails i = true ∧ H.fails j = true

def Agrees (s : Progress) (w : Fs) : Prop :=
  since ≤ w.calls ∧ Placed H safeName payload old since s w

end Disk

section Steps
variable {H : Host} {safeName : String} {payload : Payload} {old : Option Node} {since : Nat}

theorem StageAt.frame {stage : Path} {files : Staged} {w w' : Fs}
    (h : StageAt safeName stage files w) (same : w'.nodes stage = w.nodes stage) :
    StageAt safeName stage files w' := by
  obtain ⟨hidden, d, there, holds⟩ := h
  exact ⟨hidden, d, same.trans there, holds⟩

/-- Others do not disturb a publication as long as they keep off its paths. -/
theorem Agrees.frame {s : Progress} {w w' : Fs} (h : Agrees H safeName payload old since s w)
    (target : w'.nodes (targetOf safeName) = w.nodes (targetOf safeName))
    (hidden : ∀ p, Hidden safeName p → w'.nodes p = w.nodes p) (calls : w.calls ≤ w'.calls) :
    Agrees H safeName payload old since s w' := by
  obtain ⟨hs, h⟩ := h
  refine ⟨hs.trans calls, ?_⟩
  cases s with
  | checking => exact target.trans h
  | staging stage files => exact ⟨target.trans h.1, h.2.frame (hidden _ h.2.1)⟩
  | swapping stage files previous => exact ⟨target.trans h.1, h.2.1.frame (hidden _ h.2.1.1), h.2.2⟩
  | ready stage files previous => exact ⟨target.trans h.1, h.2.1.frame (hidden _ h.2.1.1), h.2.2⟩
  | retired stage files previous =>
    obtain ⟨gone, staged, named, kept, some⟩ := h
    exact ⟨target.trans gone, staged.frame (hidden _ staged.1), named,
      (hidden _ named).trans kept, some⟩
  | stranded previous =>
    obtain ⟨gone, named, kept, some, i, hi, before, failed⟩ := h
    exact ⟨target.trans gone, named, (hidden _ named).trans kept, some, i, hi,
      lt_of_lt_of_le before calls, failed⟩
  | released =>
    obtain ⟨d, files, there, holds⟩ := h
    exact ⟨d, files, target.trans there, holds⟩
  | restored => exact target.trans h
  | spoiled => exact target.trans h
  | lost =>
    obtain ⟨gone, i, j, hi, hij, before, failed⟩ := h
    exact ⟨target.trans gone, i, j, hi, hij, lt_of_lt_of_le before calls, failed⟩

theorem Holds.put {d : Dir} {files : Staged} (h : Holds d files) (name : String) (f : File)
    (mode : Option FileMode) (modes : ∀ m, mode = some m → f.mode = m) :
    Holds (d.put name (.file f)) (Function.update files name (some (f.content, mode))) := by
  constructor
  · intro other absent
    by_cases ho : other = name
    · subst ho
      simp at absent
    · rw [Function.update_of_ne ho] at absent
      simpa [ho] using h.absent other absent
  · intro other content m present
    by_cases ho : other = name
    · subst ho
      rw [Function.update_self] at present
      cases present
      exact ⟨f, by simp, rfl, modes⟩
    · rw [Function.update_of_ne ho] at present
      obtain ⟨g, there, rest⟩ := h.present other content m present
      exact ⟨g, by simpa [ho] using there, rest⟩

theorem Holds.plain {d : Dir} {files : Staged} (h : Holds d files) (name : String) :
    ∀ entry, d.get name = some entry → ∃ f, entry = .file f := by
  intro entry found
  cases hf : files name with
  | none => rw [h.absent name hf] at found; cases found
  | some file =>
    obtain ⟨f, there, -⟩ := h.present name file.1 file.2 hf
    exact ⟨f, Option.some.inj (found.symm.trans there)⟩

/-- A call on one hidden path leaves the target alone. -/
theorem target_kept (safe : safeDirectory safeName = true) {o : Op} {q : Path} (w : Fs)
    (only : ∀ p, Touches o p → p = q) (hidden : Hidden safeName q) :
    (exec H (.op o) w).2.nodes (targetOf safeName) = w.nodes (targetOf safeName) :=
  exec_frame H o w fun touched => hidden_ne_target hidden safe (only _ touched).symm

theorem mkdirTemp_hidden {namePrefix : String}
    (h : ∃ rest, namePrefix = hiddenPrefix safeName ++ rest) (p : Path)
    (touched : Touches (.mkdirTemp namePrefix) p) : Hidden safeName p := by
  obtain ⟨rest, h⟩ := h
  obtain ⟨inRoot, tail, named⟩ := touched
  exact ⟨inRoot, rest ++ tail, by rw [named, h, String.append_assoc]⟩

/-- A directory made with a hidden name is none of the paths that are taken. -/
theorem mkdirTemp_kept {namePrefix : String} {w : Fs}
    (named : ∃ rest, namePrefix = hiddenPrefix safeName ++ rest) {q : Path}
    (other : w.nodes q ≠ none ∨ ¬ Hidden safeName q) :
    (exec H (.op (.mkdirTemp namePrefix)) w).2.nodes q = w.nodes q := by
  cases answered : (exec H (.op (.mkdirTemp namePrefix)) w).1 with
  | error err => exact congrFun (mkdirTemp_error_nodes answered) q
  | ok p =>
    obtain ⟨rest, named⟩ := named
    obtain ⟨free, mode, state⟩ := mkdirTemp_fresh answered
    have away : q ≠ p := by
      rintro rfl
      have honest := exec_honest H (.op (.mkdirTemp namePrefix)) w
      rw [answered] at honest
      obtain ⟨inRoot, tail, hp⟩ := honest
      rcases other with taken | hidden
      · exact taken free
      · exact hidden ⟨inRoot, rest ++ tail, by rw [hp, named, String.append_assoc]⟩
    rw [state]
    exact Function.update_of_ne away _ _

theorem staging_step (safe : safeDirectory safeName = true) {stage : Path} {files : Staged}
    {o : Op} {w : Fs} (ok : permitted safeName payload (.staging stage files) o)
    (h : Placed H safeName payload old since (.staging stage files) w) :
    Placed H safeName payload old since
      (advance (.staging stage files) o (exec H (.op o) w).1) (exec H (.op o) w).2 := by
  obtain ⟨target, hidden, d, there, holds⟩ := h
  cases o with
  | chmodDir p =>
    cases ok
    obtain ⟨mode, state⟩ := chmodDir_dir there
    have kept := target_kept (H := H) (o := .chmodDir stage) safe w (fun _ same => same) hidden
    exact ⟨kept.trans target, hidden, _, state, holds.absent, holds.present⟩
  | remove p =>
    cases ok
    exact (target_kept (o := .remove stage) safe w (fun _ same => same) hidden).trans target
  | removeAll p =>
    exact (target_kept (o := .removeAll p) safe w (fun _ same => same) ok).trans target
  | writeFile p name content mode =>
    cases ok
    have kept := target_kept (H := H) (o := .writeFile stage name content mode) safe w
      (fun _ same => same) hidden
    cases answered : (exec H (.op (.writeFile stage name content mode)) w).1 with
    | error err => exact kept.trans target
    | ok _ =>
      obtain ⟨f, rfl, state⟩ := writeFile_ok there (holds.plain name) answered
      exact ⟨kept.trans target, hidden, _, state, holds.put name f none fun m hm => by cases hm⟩
  | chmodFile p name mode =>
    cases ok
    have kept := target_kept (H := H) (o := .chmodFile stage name mode) safe w
      (fun _ same => same) hidden
    cases answered : (exec H (.op (.chmodFile stage name mode)) w).1 with
    | error err =>
      have same := chmodFile_error answered
      exact ⟨kept.trans target, hidden, d, (congrFun same stage).trans there, holds⟩
    | ok _ =>
      obtain ⟨f, found, state⟩ := chmodFile_ok there (holds.plain name) answered
      refine ⟨kept.trans target, hidden, _, state, ?_⟩
      cases hf : files name with
      | none =>
        rw [holds.absent name hf] at found
        cases found
      | some file =>
        obtain ⟨g, present, content, -⟩ := holds.present name file.1 file.2 hf
        cases Option.some.inj (found.symm.trans present)
        have put := holds.put name { f with mode := mode } (some mode) fun m hm => Option.some.inj hm
        change Holds _ (Function.update files name (some (file.1, some mode)))
        rw [← content]
        exact put
  | mkdirTemp namePrefix =>
    cases ok
    have keptTarget : (exec H (.op (.mkdirTemp (previousPrefix safeName))) w).2.nodes
        (targetOf safeName) = w.nodes (targetOf safeName) :=
      mkdirTemp_kept ⟨"previous-", rfl⟩ (Or.inr fun h => hidden_ne_target h safe rfl)
    have keptStage : (exec H (.op (.mkdirTemp (previousPrefix safeName))) w).2.nodes stage =
        w.nodes stage :=
      mkdirTemp_kept ⟨"previous-", rfl⟩ (Or.inl (by rw [there]; simp))
    cases answered : (exec H (.op (.mkdirTemp (previousPrefix safeName))) w).1 with
    | error err =>
      exact ⟨keptTarget.trans target, hidden, d, keptStage.trans there, holds⟩
    | ok previous =>
      have honest := exec_honest H (.op (.mkdirTemp (previousPrefix safeName))) w
      rw [answered] at honest
      obtain ⟨inRoot, tail, named⟩ := honest
      refine ⟨keptTarget.trans target, ⟨hidden, d, keptStage.trans there, holds⟩, ⟨inRoot,
        "previous-" ++ tail, by rw [named, previousPrefix, String.append_assoc]⟩, ?_⟩
      rintro rfl
      rw [(mkdirTemp_fresh answered).1] at there
      cases there
  | rename why source dest =>
    obtain ⟨rfl, rfl, rfl, complete⟩ := ok
    cases answered : (exec H (.op (.rename .release source (targetOf safeName))) w).1 with
    | error err =>
      have same := (rename_error_nodes answered).1
      exact ⟨(congrFun same _).trans target, hidden, d, (congrFun same _).trans there, holds⟩
    | ok _ =>
      obtain ⟨node, found, free, state, -⟩ := rename_ok answered
      cases Option.some.inj (found.symm.trans there)
      refine ⟨d, files, ?_, holds, complete⟩
      rw [state]
      exact Function.update_self _ _ _
  | _ => exact ok.elim

theorem swapping_step (safe : safeDirectory safeName = true) {stage previous : Path}
    {files : Staged} {o : Op} {w : Fs}
    (ok : permitted safeName payload (.swapping stage files previous) o)
    (h : Placed H safeName payload old since (.swapping stage files previous) w) :
    Placed H safeName payload old since
      (advance (.swapping stage files previous) o (exec H (.op o) w).1) (exec H (.op o) w).2 := by
  obtain ⟨target, staged, hidden, apart⟩ := h
  cases o with
  | remove p =>
    cases ok
    have kept := target_kept (H := H) (o := .remove previous) safe w (fun _ same => same) hidden
    have frame := staged.frame (exec_frame H (.remove previous) w fun same => apart same.symm)
    cases (exec H (.op (.remove previous)) w).1 with
    | error err => exact ⟨kept.trans target, frame, hidden, apart⟩
    | ok _ => exact ⟨kept.trans target, frame, hidden, apart⟩
  | removeAll p =>
    exact (target_kept (o := .removeAll p) safe w (fun _ same => same) ok).trans target
  | _ => exact ok.elim

theorem ready_step (safe : safeDirectory safeName = true) {stage previous : Path}
    {files : Staged} {o : Op} {w : Fs}
    (ok : permitted safeName payload (.ready stage files previous) o)
    (h : Placed H safeName payload old since (.ready stage files previous) w) :
    Placed H safeName payload old since
      (advance (.ready stage files previous) o (exec H (.op o) w).1) (exec H (.op o) w).2 := by
  obtain ⟨target, staged, hidden, apart⟩ := h
  cases o with
  | removeAll p =>
    exact (target_kept (o := .removeAll p) safe w (fun _ same => same) ok).trans target
  | rename why source dest =>
    obtain ⟨rfl, rfl, rfl, complete⟩ := ok
    cases answered : (exec H (.op (.rename .retire (targetOf safeName) dest)) w).1 with
    | error err =>
      have same := (rename_error_nodes answered).1
      exact ⟨(congrFun same _).trans target, staged.frame (congrFun same _), hidden, apart⟩
    | ok _ =>
      obtain ⟨node, found, free, state, -⟩ := rename_ok answered
      have offTarget := hidden_ne_target hidden safe
      have offStage := hidden_ne_target staged.1 safe
      refine ⟨?_, staged.frame ?_, hidden, ?_, ?_⟩
      · rw [state, Function.update_of_ne offTarget.symm, Function.update_self]
      · rw [state, Function.update_of_ne apart.symm, Function.update_of_ne offStage]
      · rw [state, Function.update_self, ← target, found]
      · rw [← target, found]
        simp
  | _ => exact ok.elim

theorem retired_step {stage previous : Path}
    {files : Staged} {o : Op} {w : Fs} (before : since ≤ w.calls)
    (ok : permitted safeName payload (.retired stage files previous) o)
    (h : Placed H safeName payload old since (.retired stage files previous) w) :
    Placed H safeName payload old since
      (advance (.retired stage files previous) o (exec H (.op o) w).1) (exec H (.op o) w).2 := by
  obtain ⟨gone, ⟨hidden, d, there, holds⟩, named, kept, existed⟩ := h
  cases o with
  | rename why source dest =>
    obtain ⟨rfl, rfl, rfl, complete⟩ := ok
    cases answered : (exec H (.op (.rename .release source (targetOf safeName))) w).1 with
    | error err =>
      obtain ⟨failed, same⟩ := rename_error there gone answered
      refine ⟨(congrFun same _).trans gone, named, (congrFun same _).trans kept, existed,
        w.calls, before, ?_, failed⟩
      rw [exec_calls]
      exact Nat.lt_succ_self _
    | ok _ =>
      obtain ⟨node, found, free, state, -⟩ := rename_ok answered
      cases Option.some.inj (found.symm.trans there)
      refine ⟨d, files, ?_, holds, complete⟩
      rw [state, Function.update_self]
  | _ => exact ok.elim

theorem stranded_step {previous : Path} {o : Op} {w : Fs}
    (ok : permitted safeName payload (.stranded previous) o)
    (h : Placed H safeName payload old since (.stranded previous) w) :
    Placed H safeName payload old since
      (advance (.stranded previous) o (exec H (.op o) w).1) (exec H (.op o) w).2 := by
  obtain ⟨gone, named, kept, existed, i, hi, before, failed⟩ := h
  obtain ⟨node, some⟩ := Option.ne_none_iff_exists'.mp existed
  cases o with
  | rename why source dest =>
    obtain ⟨rfl, rfl, rfl⟩ := ok
    cases answered : (exec H (.op (.rename .restore source (targetOf safeName))) w).1 with
    | error err =>
      obtain ⟨failedAgain, same⟩ := rename_error (kept.trans some) gone answered
      refine ⟨(congrFun same _).trans gone, i, w.calls, hi, before, ?_, failed, failedAgain⟩
      rw [exec_calls]
      exact Nat.lt_succ_self _
    | ok _ =>
      obtain ⟨moved, found, free, state, -⟩ := rename_ok answered
      change (exec H (.op (.rename .restore source (targetOf safeName))) w).2.nodes _ = old
      rw [state, Function.update_self, ← found]
      exact kept
  | _ => exact ok.elim

/-- After the switch only hidden directories are removed. -/
theorem finished_step (safe : safeDirectory safeName = true) {s : Progress} {o : Op} {w : Fs}
    (finished : s = .released ∨ s = .restored ∨ s = .lost ∨ s = .spoiled)
    (ok : permitted safeName payload s o)
    (h : Agrees H safeName payload old since s w) :
    Agrees H safeName payload old since (advance s o (exec H (.op o) w).1) (exec H (.op o) w).2 := by
  have removal : ∃ p, o = .removeAll p ∧ Hidden safeName p := by
    rcases finished with rfl | rfl | rfl | rfl <;> cases o <;>
      first | exact ok.elim | exact ⟨_, rfl, ok⟩
  obtain ⟨p, rfl, hidden⟩ := removal
  have kept := target_kept (H := H) (o := .removeAll p) safe w (fun _ same => same) hidden
  have calls : w.calls ≤ (exec H (.op (.removeAll p)) w).2.calls := by
    rw [exec_calls]
    exact Nat.le_succ _
  obtain ⟨before, h⟩ := h
  rcases finished with rfl | rfl | rfl | rfl
  · obtain ⟨d, files, there, rest⟩ := h
    exact ⟨before.trans calls, d, files, kept.trans there, rest⟩
  · exact ⟨before.trans calls, kept.trans h⟩
  · obtain ⟨gone, i, j, hi, hij, hj, failed⟩ := h
    exact ⟨before.trans calls, kept.trans gone, i, j, hi, hij, hj.trans_le calls, failed⟩
  · exact ⟨before.trans calls, kept.trans h⟩

theorem checking_step (safe : safeDirectory safeName = true) {o : Op} {w : Fs}
    (ok : permitted safeName payload .checking o)
    (h : Placed H safeName payload old since .checking w) :
    Placed H safeName payload old since
      (advance .checking o (exec H (.op o) w).1) (exec H (.op o) w).2 := by
  cases o with
  | removeAll p =>
    exact (target_kept (o := .removeAll p) safe w (fun _ same => same) ok).trans h
  | mkdirTemp namePrefix =>
    cases ok
    have kept : (exec H (.op (.mkdirTemp (stagePrefix safeName))) w).2.nodes (targetOf safeName) =
        w.nodes (targetOf safeName) :=
      mkdirTemp_kept ⟨"stage-", rfl⟩ (Or.inr fun h => hidden_ne_target h safe rfl)
    cases answered : (exec H (.op (.mkdirTemp (stagePrefix safeName))) w).1 with
    | error err => exact kept.trans h
    | ok stage =>
      have honest := exec_honest H (.op (.mkdirTemp (stagePrefix safeName))) w
      rw [answered] at honest
      obtain ⟨inRoot, tail, named⟩ := honest
      obtain ⟨-, mode, state⟩ := mkdirTemp_fresh answered
      refine ⟨kept.trans h, ⟨inRoot, "stage-" ++ tail, by
        rw [named, stagePrefix, String.append_assoc]⟩, ⟨mode, []⟩, ?_, ?_⟩
      · rw [state, Function.update_self]
      · exact ⟨fun _ _ => rfl, fun _ _ _ impossible => by cases impossible⟩
  | _ => exact ok.elim

/-- Every allowed call takes the disk from what one note says to what the next
one says. -/
theorem agrees_call (safe : safeDirectory safeName = true) {s : Progress} {e : Call} {w : Fs}
    (ok : allows safeName payload s e) (h : Agrees H safeName payload old since s w) :
    Agrees H safeName payload old since (note s e (exec H e w).1) (exec H e w).2 := by
  have calls : w.calls ≤ (exec H e w).2.calls := by
    rw [exec_calls]
    exact Nat.le_succ _
  cases e with
  | now => exact h.frame rfl (fun _ _ => rfl) calls
  | range values => exact h.frame rfl (fun _ _ => rfl) calls
  | op o =>
    cases acts : Op.actsOnRoot o with
    | false =>
      have away : ∀ p : Path, p.area = .root → (exec H (.op o) w).2.nodes p = w.nodes p := by
        intro p inRoot
        refine exec_frame H o w fun touched => ?_
        rw [touches_backup acts touched] at inRoot
        cases inRoot
      simp only [note, acts]
      exact h.frame (away _ rfl) (fun p hidden => away p hidden.1) calls
    | true =>
      have ok := ok acts
      simp only [note, acts, if_true]
      cases s with
      | checking => exact ⟨h.1.trans calls, checking_step safe ok h.2⟩
      | staging stage files => exact ⟨h.1.trans calls, staging_step safe ok h.2⟩
      | swapping stage files previous => exact ⟨h.1.trans calls, swapping_step safe ok h.2⟩
      | ready stage files previous => exact ⟨h.1.trans calls, ready_step safe ok h.2⟩
      | retired stage files previous => exact ⟨h.1.trans calls, retired_step h.1 ok h.2⟩
      | stranded previous => exact ⟨h.1.trans calls, stranded_step ok h.2⟩
      | released => exact finished_step safe (by simp) ok h
      | restored => exact finished_step safe (by simp) ok h
      | lost => exact finished_step safe (by simp) ok h
      | spoiled => exact finished_step safe (by simp) ok h

/-- The directories a publication works in are its own. -/
def Named (safeName : String) : Progress → Prop
  | .staging stage _ => Hidden safeName stage
  | .swapping stage _ previous | .ready stage _ previous | .retired stage _ previous =>
    Hidden safeName stage ∧ Hidden safeName previous
  | .stranded previous => Hidden safeName previous
  | _ => True

theorem honest_hidden {namePrefix : String} {p : Path}
    (h : ∃ rest, namePrefix = hiddenPrefix safeName ++ rest)
    (honest : p.area = .root ∧ ∃ rest, p.name = namePrefix ++ rest) : Hidden safeName p := by
  obtain ⟨rest, h⟩ := h
  obtain ⟨inRoot, rest', named⟩ := honest
  refine ⟨inRoot, rest ++ rest', ?_⟩
  rw [named, h, String.append_assoc]

theorem named_note {s : Progress} {e : Call} {r : Answer e} (ok : allows safeName payload s e)
    (honest : Honest e r) (h : Named safeName s) : Named safeName (note s e r) := by
  cases e with
  | now => exact h
  | range values => exact h
  | op o =>
    cases acts : Op.actsOnRoot o with
    | false => simpa only [note, acts, Bool.false_eq_true, if_false] using h
    | true =>
      have ok := ok acts
      simp only [note, acts, if_true]
      cases s with
      | checking =>
        cases o with
        | mkdirTemp namePrefix =>
          cases r with
          | ok p => exact honest_hidden ⟨"stage-", ok⟩ honest
          | error err => exact h
        | removeAll p => exact h
        | _ => exact ok.elim
      | staging stage files =>
        cases o with
        | mkdirTemp namePrefix =>
          cases r with
          | ok p => exact ⟨h, honest_hidden ⟨"previous-", ok⟩ honest⟩
          | error err => exact h
        | writeFile p name content mode => cases r <;> first | exact h | trivial
        | chmodFile p name mode => cases r <;> exact h
        | chmodDir p => exact h
        | rename why source target => cases r <;> first | exact h | trivial
        | remove p => trivial
        | removeAll p => trivial
        | _ => exact ok.elim
      | swapping stage files previous =>
        cases o with
        | remove p => cases r <;> exact h
        | removeAll p => trivial
        | _ => exact ok.elim
      | ready stage files previous =>
        cases o with
        | rename why source target => cases r <;> exact h
        | removeAll p => trivial
        | _ => exact ok.elim
      | retired stage files previous =>
        cases o with
        | rename why source target => cases r <;> first | exact h.2 | trivial
        | _ => exact ok.elim
      | stranded previous =>
        cases o with
        | rename why source target => cases r <;> trivial
        | _ => exact ok.elim
      | released | restored | lost | spoiled => cases o <;> trivial

/-- Apart from its renames a publication stays in directories of its own. -/
theorem touches_hidden {s : Progress} {o : Op} (ok : allows safeName payload s (.op o))
    (h : Named safeName s) (still : ∀ why source dest, o ≠ .rename why source dest) {p : Path}
    (touched : Touches o p) : Hidden safeName p ∨ p.area = .backup := by
  cases acts : Op.actsOnRoot o with
  | false => exact Or.inr (touches_backup acts touched)
  | true =>
    have ok := ok acts
    refine Or.inl ?_
    cases o with
    | mkdirTemp namePrefix =>
      cases s with
      | checking => exact mkdirTemp_hidden ⟨"stage-", ok⟩ p touched
      | staging stage files => exact mkdirTemp_hidden ⟨"previous-", ok⟩ p touched
      | _ => exact ok.elim
    | rename why source dest => exact absurd rfl (still why source dest)
    | removeAll q =>
      cases touched
      cases s <;> first | exact ok.elim | exact ok
    | chmodDir q =>
      cases touched
      cases s with
      | staging stage files => exact (show p = stage from ok) ▸ h
      | _ => exact ok.elim
    | remove q =>
      cases touched
      cases s with
      | staging stage files => exact (show p = stage from ok) ▸ h
      | swapping stage files previous => exact (show p = previous from ok) ▸ h.2
      | _ => exact ok.elim
    | writeFile q name content mode =>
      cases touched
      cases s with
      | staging stage files => exact (show p = stage from ok) ▸ h
      | _ => exact ok.elim
    | chmodFile q name mode =>
      cases touched
      cases s with
      | staging stage files => exact (show p = stage from ok) ▸ h
      | _ => exact ok.elim
    | _ => cases s <;> exact ok.elim

/-- A publication keeps to its own paths. -/
theorem touches_own {s : Progress} {o : Op} (ok : allows safeName payload s (.op o))
    (h : Named safeName s) {p : Path} (touched : Touches o p) : Own safeName p := by
  by_cases still : ∀ why source dest, o ≠ .rename why source dest
  · exact Or.inr (touches_hidden ok h still touched)
  · push Not at still
    obtain ⟨why, source, dest, rfl⟩ := still
    have ok := ok rfl
    cases s with
    | staging stage files =>
      obtain ⟨-, rfl, rfl, -⟩ := ok
      rcases touched with rfl | rfl
      · exact Or.inr (Or.inl h)
      · exact Or.inl rfl
    | ready stage files previous =>
      obtain ⟨-, rfl, rfl, -⟩ := ok
      rcases touched with rfl | rfl
      · exact Or.inl rfl
      · exact Or.inr (Or.inl h.2)
    | retired stage files previous =>
      obtain ⟨-, rfl, rfl, -⟩ := ok
      rcases touched with rfl | rfl
      · exact Or.inr (Or.inl h.1)
      · exact Or.inl rfl
    | stranded previous =>
      obtain ⟨-, rfl, rfl⟩ := ok
      rcases touched with rfl | rfl
      · exact Or.inr (Or.inl h)
      · exact Or.inl rfl
    | _ => exact ok.elim

end Steps

end PublishProtocol
