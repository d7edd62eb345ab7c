import CertMate.PublishEnds

/-!
# What a publication loses and replaces

A publication that fails keeps a copy of every file, and with one failure at most it is as
if it had not begun. A publication that goes well replaces one directory.
-/
namespace PublishResults
open CertificateModel DomainValidation CallTrees RunTriples FileSystem CertificateFiles
  CompleteBackups PublishFailures PublishEnds
open AtomicPublish (publish_outcome sampleDisk sampleDirectory samplePayload)

/-- What is in a file of the directory. -/
def held (d : Dir) (name : String) : Option Content :=
  match d.get name with
  | some (.file f) => some f.content
  | _ => none

/-- The same files, byte for byte. -/
def SameFiles (d d' : Dir) : Prop :=
  ∀ name, name ∈ allowedFiles.map Prod.fst ∨ name = marker → held d' name = held d name

/-- The directory that is published: the files with their modes, and the marker. -/
structure Published (payload : Payload) (d : Dir) : Prop where
  files : ∀ name mode, (name, mode) ∈ allowedFiles →
    ∃ f, d.get name = some (.file f) ∧ f.content = payload.value name ∧ f.mode = mode
  marked : payload.createMarker = true →
    ∃ f time, d.get marker = some (.file f) ∧ f.content = .renewedAt time
  unmarked : payload.createMarker = false → d.get marker = none
  nothingElse : ∀ name, name ∉ allowedFiles.map Prod.fst → name ≠ marker → d.get name = none

theorem held_copied {d d' : Dir} {name : String} (copied : Copied d d' name) :
    held d' name = held d name := by
  obtain ⟨f, g, found, copy, same⟩ := copied
  rw [held, held, found, copy]
  exact congrArg some same

theorem sameFiles_of_snapshot {d d' : Dir} (snapshot : Snapshot d d') : SameFiles d d' := by
  rintro name (listed | rfl)
  · obtain ⟨file, among, rfl⟩ := List.mem_map.mp listed
    exact held_copied (snapshot.files file among)
  · cases found : d.get marker with
    | none => rw [held, held, found, snapshot.unmarked found]
    | some entry => exact held_copied (snapshot.marked entry found)

theorem published_of_newAt {safeName : String} {payload : Payload} {s : Fs}
    (h : PublishProtocol.NewAt safeName payload s) :
    ∃ d, s.nodes (targetOf safeName) = some (.dir d) ∧ Published payload d := by
  obtain ⟨d, files, there, holds, complete⟩ := h
  refine ⟨d, there, ⟨fun name mode listed => ?_, fun marked => ?_, fun unmarked => ?_,
    fun name away other => ?_⟩⟩
  · obtain ⟨f, found, content, modes⟩ := holds.present _ _ _ (complete.allowed name mode listed)
    exact ⟨f, found, content, modes mode rfl⟩
  · obtain ⟨time, placed⟩ := complete.marked marked
    obtain ⟨f, found, content, -⟩ := holds.present _ _ _ placed
    exact ⟨f, time, found, content⟩
  · exact holds.absent _ (complete.unmarked unmarked)
  · exact holds.absent _ (complete.nothingElse name away other)

section Results
variable {H : Host} {safeName : String} {payload : Payload} {s : Fs}

/-- How a run ends, without the count beside it. -/
theorem publish_end (safe : safeDirectory safeName = true) :
    PublishEnd H safeName payload s (run (exec H) (publish safeName payload) s).1
      (failures H (publish safeName payload) s, (run (exec H) (publish safeName payload) s).2) := by
  have ends := @publish_ends H safeName payload s safe
  have state := @counted_state _ _ _ _ (exec H) failed (publish safeName payload) 0 s
  unfold Yields at ends state
  rw [state]
  exact ends

/-- A publication that fails leaves a copy of the old files, whichever of its calls fail.
If one fails at most, the target and the backups are as they were, and so is the rest of the
root, unless the payload lacks a part and the last call, the removal of the stage, fails. -/
theorem failed_publish_keeps {err : Error} (proper : Proper safeName s)
    (refused : (run (exec H) (publish safeName payload) s).1 = .error err) :
    (∀ d, s.nodes (targetOf safeName) = some (.dir d) → ∃ p d',
      (p = targetOf safeName ∨ Previous safeName p ∨ p.area = .backup) ∧
        (run (exec H) (publish safeName payload) s).2.nodes p = some (.dir d') ∧ SameFiles d d') ∧
    (failures H (publish safeName payload) s ≤ 1 →
      (run (exec H) (publish safeName payload) s).2.nodes (targetOf safeName) =
          s.nodes (targetOf safeName) ∧
        (∀ p : FileSystem.Path, p.area = .backup → s.nodes p ≠ none →
          (run (exec H) (publish safeName payload) s).2.nodes p = s.nodes p) ∧
        (RootKept safeName s (run (exec H) (publish safeName payload) s).2 ∨
          ¬ Filled payload ∧ ∃ stage,
            StageLeft H safeName s (run (exec H) (publish safeName payload) s).2 stage)) := by
  have left : FailedEnd H safeName payload s (failures H (publish safeName payload) s)
      (run (exec H) (publish safeName payload) s).2 := by
    by_cases safe : safeDirectory safeName = true
    · have ends := @publish_end H safeName payload s safe
      rw [refused] at ends
      cases ends with
      | failed left => exact left
    · obtain ⟨err, stopped⟩ := PublishProtocol.publish_unsafe safeName payload safe
      rw [stopped]
      exact failedEnd_of_nodes _ rfl
  refine ⟨fun d there => ?_, fun few => ⟨?_, left.backups, left.root proper few⟩⟩
  · rcases left.target with same | ⟨-, backup, d₀, d', there₀, outside, -, copy, snapshot⟩
    · exact ⟨_, d, Or.inl rfl, same.trans there, fun _ _ => rfl⟩
    · cases there.symm.trans there₀
      exact ⟨backup, d', Or.inr (Or.inr outside), copy, sameFiles_of_snapshot snapshot⟩
  · rcases left.target with same | ⟨many, -⟩
    · exact same
    · omega

/-- A publication that goes well, on a disk where nothing fails, puts the payload at the
target, adds one backup of what was there, and changes nothing else. -/
theorem publish_replaces {target : FileSystem.Path} (calm : ∀ i, H.fails i = false)
    (published : (run (exec H) (publish safeName payload) s).1 = .ok target) :
    (∃ d, (run (exec H) (publish safeName payload) s).2.nodes (targetOf safeName) = some (.dir d) ∧
      Published payload d) ∧
    ((s.nodes (targetOf safeName) = none ∧ ∀ p, p ≠ targetOf safeName →
        (run (exec H) (publish safeName payload) s).2.nodes p = s.nodes p) ∨
      ∃ backup old saved, s.nodes (targetOf safeName) = some (.dir old) ∧ backup.area = .backup ∧
        s.nodes backup = none ∧
        (run (exec H) (publish safeName payload) s).2.nodes backup = some (.dir saved) ∧
        Snapshot old saved ∧ ∀ p, p ≠ targetOf safeName → p ≠ backup →
          (run (exec H) (publish safeName payload) s).2.nodes p = s.nodes p) := by
  have safe : safeDirectory safeName = true := by
    by_contra invalid
    obtain ⟨err, stopped⟩ := PublishProtocol.publish_unsafe safeName payload invalid
    rw [stopped] at published
    cases published
  have placed := publish_outcome H safeName payload s
  rw [published] at placed
  refine ⟨published_of_newAt placed.2, ?_⟩
  have ends := @publish_end H safeName payload s safe
  rw [published] at ends
  cases ends with
  | done settled =>
    rcases settled with fresh | ⟨backup, ⟨old, saved, there, outside, absent, copy, snapshot⟩, rest⟩
    · exact Or.inl fresh
    · exact Or.inr ⟨backup, old, saved, there, outside, absent, copy, snapshot, rest calm⟩

end Results

/-- A host on which one call fails. -/
def failingHost (k : Nat) : Host := { calmHost with fails := fun n => n = k }

theorem sampleDisk_proper : Proper "example-com" sampleDisk := by
  refine Or.inr ⟨sampleDirectory, rfl, ⟨fun file among => ?_, fun entry found => ?_⟩⟩
  · simp only [allowedFiles, List.mem_cons, List.not_mem_nil, or_false] at among
    rcases among with rfl | rfl | rfl | rfl | rfl <;> exact ⟨_, rfl⟩
  · have absent : sampleDirectory.get marker = none := rfl
    rw [absent] at found
    cases found

theorem error_of_toOption {α : Type} {r : Except Error α} (h : r.toOption.isNone = true) :
    ∃ err, r = .error err := by
  cases r with
  | error err => exact ⟨err, rfl⟩
  | ok v => cases h

/-- The second rename fails, and the old directory is moved back. -/
theorem failed_publish_keeps_rename :
    (run (exec (failingHost 54)) (publish "example-com" (samplePayload 2)) sampleDisk).2.nodes
      (targetOf "example-com") = some (.dir sampleDirectory) := by
  have none : (run (exec (failingHost 54)) (publish "example-com" (samplePayload 2))
      sampleDisk).1.toOption.isNone = true := by
    decide +kernel
  obtain ⟨err, refused⟩ := error_of_toOption none
  have few : failures (failingHost 54) (publish "example-com" (samplePayload 2)) sampleDisk ≤ 1 := by
    decide +kernel
  exact ((failed_publish_keeps sampleDisk_proper refused).2 few).1

/-- A payload without a certificate, of which only the removal of the stage fails. -/
theorem stage_left : ¬ ∀ (H : Host) (safeName : String) (payload : Payload) (s : Fs) (err : Error),
    Proper safeName s → (run (exec H) (publish safeName payload) s).1 = .error err →
    failures H (publish safeName payload) s ≤ 1 → ∀ p : FileSystem.Path, p.area = .root →
      (∃ rest, p.name = stagePrefix safeName ++ rest) → s.nodes p = none →
        (run (exec H) (publish safeName payload) s).2.nodes p = none := by
  intro claim
  have none : (run (exec (failingHost 5)) (publish "example-com"
      { samplePayload 2 with certPEM := .bytes [] }) sampleDisk).1.toOption.isNone = true := by
    decide +kernel
  obtain ⟨err, refused⟩ := error_of_toOption none
  have few : failures (failingHost 5) (publish "example-com"
      { samplePayload 2 with certPEM := .bytes [] }) sampleDisk ≤ 1 := by
    decide +kernel
  have left : ((run (exec (failingHost 5)) (publish "example-com"
      { samplePayload 2 with certPEM := .bytes [] }) sampleDisk).2.nodes
        ⟨.root, ".example-com.stage-2x0"⟩).isNone = false := by
    decide +kernel
  have gone := claim _ _ _ _ err sampleDisk_proper refused few ⟨.root, ".example-com.stage-2x0"⟩ rfl
    ⟨"2x0", by decide⟩ rfl
  rw [gone] at left
  cases left

theorem publish_replaces_second : ∃ backup old saved,
    sampleDisk.nodes (targetOf "example-com") = some (.dir old) ∧
      (run (exec calmHost) (publish "example-com" (samplePayload 2)) sampleDisk).2.nodes backup =
        some (.dir saved) ∧ Snapshot old saved := by
  have some_ : (run (exec calmHost) (publish "example-com" (samplePayload 2))
      sampleDisk).1.toOption = some (targetOf "example-com") := by
    decide +kernel
  cases published : (run (exec calmHost) (publish "example-com" (samplePayload 2)) sampleDisk).1 with
  | error err =>
    rw [published] at some_
    cases some_
  | ok target =>
    rcases (publish_replaces (fun _ => rfl) published).2 with
      ⟨none, -⟩ | ⟨backup, old, saved, there, -, -, copy, snapshot, -⟩
    · cases none
    · exact ⟨backup, old, saved, there, copy, snapshot⟩

end PublishResults
