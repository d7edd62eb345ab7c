import CertMate.PublishProtocol

/-!
# What readers and crashes see of a publication

`Publish` moves the old directory away with one rename and the new one in with
another. Between the two there is no directory, and nowhere else.
-/
namespace AtomicPublish
open CertificateModel DomainValidation FileSystem CallTrees CertificateFiles PublishProtocol

/-- All files of a certificate are there. -/
def CompleteDirectory (d : Dir) : Prop :=
  ∀ file ∈ allowedFiles, ∃ f, d.get file.1 = some (.file f)

/-- Since `w` the old directory was moved away, and nothing was moved since. -/
def BetweenRenames (w w' : Fs) : Prop :=
  ∃ source target, w'.switches = (.retire, source, target) :: w.switches

/-- How the notes account for the renames that have succeeded since `w`. -/
def Logged (w : Fs) : Progress → Fs → Prop
  | .retired _ _ _, w' | .stranded _, w' | .lost, w' => BetweenRenames w w'
  | .released, w' | .restored, w' => ¬ BetweenRenames w w'
  | _, w' => w'.switches = w.switches

section Steps
variable {H : Host} {safeName : String} {payload : Payload}

theorem Logged.same {w : Fs} {s : Progress} {u u' : Fs} (h : Logged w s u)
    (same : u'.switches = u.switches) : Logged w s u' := by
  cases s <;> simp only [Logged, BetweenRenames, same] at h ⊢ <;> exact h

theorem not_between_of_second {w u : Fs} {why : Switch} {source target : Path}
    {first : Switch × Path × Path}
    (h : u.switches = (why, source, target) :: first :: w.switches) : ¬ BetweenRenames w u := by
  rintro ⟨source', target', h'⟩
  have lengths := congrArg List.length (h.symm.trans h')
  simp at lengths

theorem logged_call {w : Fs} {s : Progress} {e : Call} {u : Fs}
    (ok : allows safeName payload s e) (h : Logged w s u) :
    Logged w (note s e (exec H e u).1) (exec H e u).2 := by
  cases e with
  | now => exact h.same rfl
  | range values => exact h.same rfl
  | op o =>
    cases acts : Op.actsOnRoot o with
    | false =>
      simp only [note, acts]
      refine h.same (exec_switches ?_)
      rintro why source target rfl
      cases acts
    | true =>
      have ok := ok acts
      simp only [note, acts, if_true]
      cases o with
      | rename why source target =>
        cases answered : (exec H (.op (.rename why source target)) u).1 with
        | error err =>
          have same := (rename_error_nodes answered).2
          cases s with
          | retired stage files previous => exact h.same same
          | stranded previous => exact h.same same
          | _ => first | exact ok.elim | exact h.same same
        | ok _ =>
          obtain ⟨-, -, -, -, log⟩ := rename_ok answered
          cases s with
          | staging stage files =>
            obtain ⟨rfl, rfl, rfl, -⟩ := ok
            rintro ⟨source', target', between⟩
            rw [log] at between
            cases between
          | ready stage files previous =>
            obtain ⟨rfl, -⟩ := ok
            exact ⟨source, target, log.trans (congrArg _ h)⟩
          | retired stage files previous =>
            obtain ⟨source', target', first⟩ := h
            exact not_between_of_second (log.trans (congrArg _ first))
          | stranded previous =>
            obtain ⟨source', target', first⟩ := h
            exact not_between_of_second (log.trans (congrArg _ first))
          | _ => exact ok.elim
      | removeAll p =>
        have same := exec_switches (H := H) (s := u) (o := .removeAll p) (by simp)
        cases s <;> first | exact ok.elim | exact h.same same
      | mkdirTemp namePrefix =>
        have same := exec_switches (H := H) (s := u) (o := .mkdirTemp namePrefix) (by simp)
        cases (exec H (.op (.mkdirTemp namePrefix)) u).1 <;> cases s <;>
          first | exact ok.elim | exact h.same same
      | remove p =>
        have same := exec_switches (H := H) (s := u) (o := .remove p) (by simp)
        cases (exec H (.op (.remove p)) u).1 <;> cases s <;>
          first | exact ok.elim | exact h.same same
      | chmodDir p =>
        have same := exec_switches (H := H) (s := u) (o := .chmodDir p) (by simp)
        cases s <;> first | exact ok.elim | exact h.same same
      | writeFile p name content mode =>
        have same := exec_switches (H := H) (s := u) (o := .writeFile p name content mode) (by simp)
        cases (exec H (.op (.writeFile p name content mode)) u).1 <;> cases s <;>
          first | exact ok.elim | exact h.same same
      | chmodFile p name mode =>
        have same := exec_switches (H := H) (s := u) (o := .chmodFile p name mode) (by simp)
        cases (exec H (.op (.chmodFile p name mode)) u).1 <;> cases s <;>
          first | exact ok.elim | exact h.same same
      | _ => cases s <;> exact ok.elim

/-- The old directory or the new one is at the target exactly as long as the
renames have not left it without any. -/
theorem placed_iff {w u : Fs} {s : Progress} {since : Nat} {d : Dir}
    (h : Agrees H safeName payload (some (.dir d)) since s u) (log : Logged w s u) :
    (u.nodes (targetOf safeName) = some (.dir d) ∨ NewAt safeName payload u) ↔
      ¬ BetweenRenames w u := by
  have old : ∀ {u}, u.switches = w.switches → ¬ BetweenRenames w u := by
    rintro u same ⟨source, target, between⟩
    have lengths := congrArg List.length (same.symm.trans between)
    simp at lengths
  have none : u.nodes (targetOf safeName) = none → BetweenRenames w u →
      ((u.nodes (targetOf safeName) = some (.dir d) ∨ NewAt safeName payload u) ↔
        ¬ BetweenRenames w u) := by
    intro gone between
    refine ⟨?_, fun h => absurd between h⟩
    rintro (there | ⟨d', files, there, -⟩) <;> rw [gone] at there <;> cases there
  have h := h.2
  cases s with
  | checking => exact iff_of_true (Or.inl h) (old log)
  | staging stage files => exact iff_of_true (Or.inl h.1) (old log)
  | swapping stage files previous => exact iff_of_true (Or.inl h.1) (old log)
  | ready stage files previous => exact iff_of_true (Or.inl h.1) (old log)
  | spoiled => exact iff_of_true (Or.inl h) (old log)
  | retired stage files previous => exact none h.1 log
  | stranded previous => exact none h.1 log
  | lost => exact none h.1 log
  | released => exact iff_of_true (Or.inr h) log
  | restored => exact iff_of_true (Or.inl h) log

end Steps

def sampleFile (content : Bytes) (mode : FileMode) : Entry := .file ⟨0, .bytes content, mode⟩

def sampleDirectory : Dir :=
  ⟨0o750, [("cert.pem", sampleFile [1] 0o644), ("chain.pem", sampleFile [1] 0o644),
    ("fullchain.pem", sampleFile [1] 0o644), ("privkey.pem", sampleFile [1] 0o600),
    ("metadata.json", sampleFile [1] 0o644)]⟩

def sampleDisk : Fs where
  root := some .dir
  backupExists := true
  nodes p := if p = targetOf "example-com" then some (.dir sampleDirectory) else none
  calls := 0
  serial := 1
  switches := []

def samplePayload (byte : UInt8) : Payload where
  certPEM := .bytes [byte]
  chainPEM := .bytes [byte]
  fullchainPEM := .bytes [byte]
  privateKeyPEM := .bytes [byte]
  metadataJSON := .bytes [byte]
  createMarker := false

section Publish
variable (H : Host) (safeName : String) (payload : Payload) (w : Fs)

theorem publish_through (safe : safeDirectory safeName = true) :
    Through (exec H) (fun u => ∃ s, Agrees H safeName payload (w.nodes (targetOf safeName)) w.calls s u
        ∧ Logged w s u) (publish safeName payload) w ∧
      ∃ s, @Over safeName (run (exec H) (publish safeName payload) w).1 s ∧
        Agrees H safeName payload (w.nodes (targetOf safeName)) w.calls s
            (run (exec H) (publish safeName payload) w).2 ∧
          Logged w s (run (exec H) (publish safeName payload) w).2 :=
  publish_follows.run_invariant
    (fun _ e u ok h => ⟨exec_honest H e u, agrees_call safe ok h.1, logged_call ok h.2⟩)
    ⟨⟨le_rfl, rfl⟩, rfl⟩

/-- Publishing over an existing directory: after any number of calls, whichever
of them fail, the target is the old directory or the complete new one unless
the calls stopped between moving the old one away and moving one back in. -/
theorem publish_old_or_new_iff (d : Dir) (existing : w.nodes (targetOf safeName) = some (.dir d))
    (n : Nat) :
    ((upTo (exec H) n (publish safeName payload) w).nodes (targetOf safeName) = some (.dir d) ∨
        NewAt safeName payload (upTo (exec H) n (publish safeName payload) w)) ↔
      ¬ BetweenRenames w (upTo (exec H) n (publish safeName payload) w) := by
  by_cases safe : safeDirectory safeName = true
  · have through := (publish_through H safeName payload w safe).1
    obtain ⟨s, agrees, logged⟩ := (through_iff_upTo _ _ _ _).mp through n
    rw [existing] at agrees
    exact placed_iff agrees logged
  · obtain ⟨err, stopped⟩ := publish_unsafe safeName payload safe
    have same : upTo (exec H) n (publish safeName payload) w = w := by
      rw [stopped]
      cases n <;> rfl
    rw [same]
    refine iff_of_true (Or.inl existing) ?_
    rintro ⟨source, target, between⟩
    have lengths := congrArg List.length between
    simp at lengths

theorem publish_old_or_new_iff_second :
    ((upTo (exec calmHost) 20 (publish "example-com" (samplePayload 2)) sampleDisk).nodes
          (targetOf "example-com") = some (.dir sampleDirectory) ∨
        NewAt "example-com" (samplePayload 2)
          (upTo (exec calmHost) 20 (publish "example-com" (samplePayload 2)) sampleDisk)) ↔
      ¬ BetweenRenames sampleDisk
        (upTo (exec calmHost) 20 (publish "example-com" (samplePayload 2)) sampleDisk) :=
  publish_old_or_new_iff calmHost "example-com" (samplePayload 2) sampleDisk sampleDirectory rfl 20

/-- On a disk where nothing fails, a reader or a crash between the two renames
finds no directory at all. -/
theorem publish_leaves_gap :
    ¬ ∀ (H : Host) (safeName : String) (payload : Payload) (w : Fs) (d : Dir),
      CompleteDirectory d → (∀ file ∈ allowedFiles, (payload.value file.1).isEmpty = false) →
      w.nodes (targetOf safeName) = some (.dir d) → ∀ n,
        (upTo (exec H) n (publish safeName payload) w).nodes (targetOf safeName) = some (.dir d) ∨
          NewAt safeName payload (upTo (exec H) n (publish safeName payload) w) := by
  intro h
  have complete : CompleteDirectory sampleDirectory := by
    intro file hfile
    simp only [allowedFiles, List.mem_cons, List.not_mem_nil, or_false] at hfile
    rcases hfile with rfl | rfl | rfl | rfl | rfl <;> exact ⟨_, rfl⟩
  have valid : ∀ file ∈ allowedFiles, ((samplePayload 2).value file.1).isEmpty = false := by
    decide
  have gone : (upTo (exec calmHost) 54 (publish "example-com" (samplePayload 2)) sampleDisk).nodes
      (targetOf "example-com") = none := by
    decide +kernel
  rcases h calmHost "example-com" (samplePayload 2) sampleDisk sampleDirectory complete valid rfl 54
    with there | ⟨d, files, there, -⟩ <;> rw [gone] at there <;> cases there

/-- A publication that returns an error has left the target alone, unless two
calls have failed. -/
theorem publish_outcome :
    match (run (exec H) (publish safeName payload) w).1 with
    | .ok target =>
      target = targetOf safeName ∧ NewAt safeName payload (run (exec H) (publish safeName payload) w).2
    | .error _ =>
      (run (exec H) (publish safeName payload) w).2.nodes (targetOf safeName) =
          w.nodes (targetOf safeName) ∨
        ∃ i j, w.calls ≤ i ∧ i < j ∧ H.fails i = true ∧ H.fails j = true := by
  by_cases safe : safeDirectory safeName = true
  · obtain ⟨s, ending, agrees, -⟩ := (publish_through H safeName payload w safe).2
    have agrees := agrees.2
    cases answered : (run (exec H) (publish safeName payload) w).1 with
    | ok target =>
      rw [answered] at ending
      obtain ⟨rfl, rfl⟩ := ending
      exact ⟨rfl, agrees⟩
    | error err =>
      rw [answered] at ending
      rcases ending with rfl | rfl | rfl | rfl
      · exact Or.inl agrees
      · exact Or.inl agrees
      · exact Or.inl agrees
      · obtain ⟨-, i, j, hi, hij, -, failed⟩ := agrees
        exact Or.inr ⟨i, j, hi, hij, failed⟩
  · obtain ⟨err, stopped⟩ := publish_unsafe safeName payload safe
    rw [stopped]
    exact Or.inl rfl

end Publish

end AtomicPublish
