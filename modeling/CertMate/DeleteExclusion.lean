import CertMate.AtomicPublish
import CertMate.ServicePool

/-!
# Deleting while others work

A delete takes the lock of its certificate, but a creation holds none, and the
lock is not one of the directory. What is left when no delete commits in the
middle of a creation, and no new record takes a directory that is being cleared.
-/
namespace DeleteExclusion
open CertificateModel DomainValidation CallTrees ThreadPools ServiceWorld CertificateFiles
  CertificateService ServiceProtocol ServiceSteps ServicePool
open SqliteStore hiding exec
open PublishProtocol (Progress Quiet Named)
open AtomicPublish (sampleDirectory)

/-- The creation of the certificate, as long as it may still publish. -/
def Creates (phase : Phase) (v : Certificate) : Prop :=
  phase = .marked v none ∨ ∃ got progress, phase = .working v none got progress

/-- No delete commits in the middle of the creation of its certificate, for
certificates of this directory. -/
def SparesCreations (directory : String) (c : Configuration) (e : Eff) : Prop :=
  ∀ id event, e = .store (.deleteCertificateWithAudit id event) →
    ∀ t th v, c.threads t = some th → Creates th.seen.phase v → v.outputDirectory = directory →
      v.id ≠ id

/-- No record is inserted for the directory as long as a delete is about to
remove its files or has just removed them. -/
def SparesRemovals (directory : String) (c : Configuration) (e : Eff) : Prop :=
  ∀ value, e = .store (.createCertificate value) → value.outputDirectory = directory →
    ∀ t th v, c.threads t = some th → th.seen.request.clears → th.seen.phase.gone = some v →
      v.outputDirectory ≠ directory

def restricted (P : Configuration → Eff → Prop) : Discipline Eff Ans World Local (Outcome Unit) where
  start _ _ := True
  call c _ e := P c e
  crash _ := True

/-- Everything a publication has made below the root carries its own name. -/
def named : Assertion Eff Ans World Local (Outcome Unit) where
  world _ := True
  thread _ th _ := ∀ v lock got progress, th.seen.phase = .working v lock got progress →
    Named v.outputDirectory progress

theorem named_move {request : Request} {phase phase' : Phase} {e : Eff} {r : Ans e}
    (move : Move request phase e r phase')
    (h : ∀ v lock got progress, phase = .working v lock got progress → Named v.outputDirectory progress)
    (v : Certificate) (lock : Option Nat) (got : Option Material) (progress : Progress)
    (at' : phase' = .working v lock got progress) : Named v.outputDirectory progress := by
  cases move with
  | stay still => exact h v lock got progress at'
  | work about => cases at'; trivial
  | deliver got => cases at'; trivial
  | publish safe matching allowed honest =>
    cases at'
    exact PublishProtocol.named_note allowed honest (h _ _ _ _ rfl)
  | release mine done next => rcases next with rfl | ⟨v', -, rfl⟩ <;> cases at'
  | _ => cases at'

theorem named_stable {env : Environment} {s : Service}
    {D : Discipline Eff Ans World Local (Outcome Unit)} :
    named.Stable (pool env s) D (Sound env s) where
  own _ _ _ _ _ sound holds running _ _ :=
    ⟨trivial, named_move (sound.move running) (holds.thread _ _ running)⟩
  other _ _ _ _ _ _ _ _ holds _ _ _ _ there := holds.thread _ _ there
  start _ _ _ _ _ _ started _ := by
    obtain ⟨request, -, rfl⟩ := started
    exact fun _ _ _ _ h => by cases h
  spawn _ _ _ _ _ _ _ _ _ _ child _ _ := by
    obtain ⟨request, rfl⟩ := spawn_some child
    exact fun _ _ _ _ h => by cases h
  crash _ _ _ _ := trivial

/-- The record of a certificate that is being created stays. -/
def recorded (directory : String) : Assertion Eff Ans World Local (Outcome Unit) where
  world _ := True
  thread _ th w := ∀ v, Creates th.seen.phase v → v.outputDirectory = directory →
    ∃ row, w.db.row v.id = some row

/-- No creation deletes a record. -/
theorem creates_spares {request : Request} {phase : Phase} {e : Eff} {v : Certificate}
    (creates : Creates phase v) (allowed : allows request phase e) (id : Id) (event : Event) :
    e ≠ .store (.deleteCertificateWithAudit id event) := by
  rintro rfl
  rcases creates with rfl | ⟨got, progress, rfl⟩ <;> exact allowed

theorem recorded_own {env : Environment} {t : Nat} {w : World} {request : Request}
    {phase phase' : Phase} {e : Eff} {r : Ans e} {directory : String}
    (allowed : allows request phase e) (move : Move request phase e r phase')
    (answer : (exec env t e w).1 = r)
    (h : ∀ v, Creates phase v → v.outputDirectory = directory → ∃ row, w.db.row v.id = some row)
    (v : Certificate) (creates : Creates phase' v) (same : v.outputDirectory = directory) :
    ∃ row, (exec env t e w).2.db.row v.id = some row := by
  have kept : Creates phase v → ∃ row, (exec env t e w).2.db.row v.id = some row := by
    intro before
    obtain ⟨row, there⟩ := h v before same
    obtain ⟨row', there', -⟩ := row_kept there (creates_spares before allowed v.id)
    exact ⟨row', there'⟩
  cases move with
  | stay still => exact kept creates
  | create requested issuing =>
    obtain ⟨rfl, there, -⟩ := SqliteStore.createCertificate_ok answer
    rcases creates with same | ⟨got, progress, same⟩ <;> cases same
    exact ⟨_, there⟩
  | work about =>
    rcases creates with same | ⟨got, progress, same⟩ <;> cases same
    exact kept (Or.inl rfl)
  | deliver got =>
    rcases creates with same | ⟨got, progress, same⟩ <;> cases same
    exact kept (Or.inr ⟨_, _, rfl⟩)
  | publish safe matching allowed honest =>
    rcases creates with same | ⟨got, progress, same⟩ <;> cases same
    exact kept (Or.inr ⟨_, _, rfl⟩)
  | release mine done next =>
    rcases next with rfl | ⟨v', -, rfl⟩ <;>
      rcases creates with same | ⟨got, progress, same⟩ <;> cases same
  | _ => rcases creates with same | ⟨got, progress, same⟩ <;> cases same

theorem recorded_stable {env : Environment} {s : Service}
    {D : Discipline Eff Ans World Local (Outcome Unit)} {directory : String}
    (spares : ∀ c t e, D.call c t e → SparesCreations directory c e) :
    (recorded directory).Stable (pool env s) D (Sound env s) where
  own _ _ _ _ _ sound holds running _ _ :=
    ⟨trivial, recorded_own (sound.allowed running) (sound.move running) rfl
      (holds.thread _ _ running)⟩
  other c t e _ _ u th _ holds _ _ ok _ there v creates same := by
    obtain ⟨row, found⟩ := holds.thread u th there v creates same
    have spared : ∀ event, e ≠ .store (.deleteCertificateWithAudit v.id event) := by
      intro event he
      exact spares c t e ok v.id event he u th v there creates same rfl
    obtain ⟨row', found', -⟩ := row_kept found spared
    exact ⟨row', found'⟩
  start _ _ _ _ _ _ started _ := by
    obtain ⟨request, -, rfl⟩ := started
    rintro v (same | ⟨got, progress, same⟩) <;> cases same
  spawn _ _ _ _ _ _ _ _ _ _ child _ _ := by
    obtain ⟨request, rfl⟩ := spawn_some child
    rintro v (same | ⟨got, progress, same⟩) <;> cases same
  crash _ _ _ _ := trivial

section Publishing
variable {env : Environment} {s : Service} {c : Configuration} {directory : String}
  (sound : Sound env s c) (records : (recorded directory).Holds c) {t : Nat}
  {th : Thread Eff Ans Local (Outcome Unit)} (there : c.threads t = some th)
include sound records there

/-- Whoever publishes to the directory has a stored certificate, which owns it. -/
theorem publisher_recorded {v : Certificate} {lock : Option Nat} {got : Option Material}
    {progress : Progress} (phase : th.seen.phase = .working v lock got progress)
    (same : v.outputDirectory = directory) :
    ∃ row, c.world.db.row v.id = some row ∧ row.outputDirectory = v.outputDirectory := by
  have standing := sound.standing there
  have found : ∃ row, c.world.db.row v.id = some row := by
    cases lock with
    | none => exact records.thread t th there v (Or.inr ⟨got, progress, phase⟩) same
    | some lock => exact standing.attached v (by rw [phase]; rfl)
  obtain ⟨row, found⟩ := found
  exact ⟨row, found, standing.directory v row (by rw [phase]; rfl) found⟩

end Publishing

/-- Everything published for a certificate so far. -/
def publicationsOf (id : Id) (w : World) : List (Id × String × FileSystem.Node) :=
  w.publications.filter fun p => p.1 = id

/-- A publication is a rename of a publisher. -/
theorem publications_kept {env : Environment} {t : Nat} {e : Eff} {w : World} {request : Request}
    {phase : Phase} (allowed : allows request phase e) (id : Id)
    (idle : ∀ v lock material progress, phase = .working v lock (some material) progress → v.id ≠ id) :
    publicationsOf id (exec env t e w).2 = publicationsOf id w := by
  cases e with
  | file certificate e =>
    simp only [exec, execFile]
    split
    · rename_i source target
      have published : certificate ≠ id := by
        cases phase with
        | working v lock got progress =>
          cases got with
          | none => cases allowed
          | some material =>
            rw [allowed.1]
            exact idle v lock material progress rfl
        | removing v lock cleared => rcases allowed.2.2 with he | he <;> cases he
        | _ => cases allowed
      split
      · simp [publicationsOf, World.published, published]
      · rfl
    · rfl
  | loadOrStore | tryLock | acquireSlot => simp only [exec]; split <;> rfl
  | _ => rfl

/-- No record owns the directory. -/
def Vacant (directory : String) (w : World) : Prop :=
  ∀ id row, w.db.row id = some row → row.outputDirectory ≠ directory

/-- A directory gets an owner by an insert only. -/
theorem vacant_kept {env : Environment} {t : Nat} {e : Eff} {w : World} {directory : String}
    (h : Vacant directory w)
    (spared : ∀ value, e = .store (.createCertificate value) → directory ≠ value.outputDirectory) :
    Vacant directory (exec env t e w).2 := by
  intro id row there same
  rcases row_directory there with ⟨c, before, kept⟩ | ⟨value, created, taken⟩
  · exact h id c before (kept.symm.trans same)
  · exact spared value created (same.symm.trans taken)

/-- The directory has no owner as long as a delete clears it. -/
def vacated (directory : String) : Assertion Eff Ans World Local (Outcome Unit) where
  world _ := True
  thread _ th w := ∀ v, th.seen.request.clears → th.seen.phase.gone = some v →
    v.outputDirectory = directory → Vacant directory w

theorem vacated_own {env : Environment} {t : Nat} {w : World} {request : Request}
    {phase phase' : Phase} {e : Eff} {r : Ans e} {directory : String}
    (standing : Standing t ⟨request, phase⟩ w) (allowed : allows request phase e)
    (move : Move request phase e r phase') (answer : (exec env t e w).1 = r)
    (h : ∀ v, phase.gone = some v → v.outputDirectory = directory → Vacant directory w)
    (v : Certificate) (gone : phase'.gone = some v) (owned : v.outputDirectory = directory) :
    Vacant directory (exec env t e w).2 := by
  have kept : phase.gone = some v → Vacant directory (exec env t e w).2 := by
    intro before
    refine vacant_kept (h v before owned) fun value he => ?_
    subst he
    rw [allowed.1] at before
    cases before
  cases move with
  | stay still => exact kept gone
  | @remove v' lock event about =>
    cases gone
    obtain ⟨⟨row, there⟩, absent⟩ := SqliteStore.delete_ok answer
    intro id row' there' same
    rcases row_directory there' with ⟨c, before, kept⟩ | ⟨value, created, -⟩
    · have owner : id = v.id := Db.same_directory before there
        ((kept.symm.trans same).trans (owned.symm.trans (standing.directory v row rfl there).symm))
      subst owner
      cases absent.symm.trans there'
    · cases created
  | clear clears removes => exact kept gone
  | release mine done next =>
    rcases next with rfl | ⟨v', rfl, rfl⟩
    · cases gone
    · exact kept gone
  | _ => cases gone

theorem vacated_stable {env : Environment} {s : Service}
    {D : Discipline Eff Ans World Local (Outcome Unit)} {directory : String}
    (spares : ∀ c t e, D.call c t e → SparesRemovals directory c e) :
    (vacated directory).Stable (pool env s) D (Sound env s) where
  own _ _ _ _ _ sound holds running _ _ := by
    refine ⟨trivial, fun v clears gone owned => ?_⟩
    exact vacated_own (sound.standing running) (sound.allowed running) (sound.move running) rfl
      (fun v => holds.thread _ _ running v clears) v gone owned
  other c t e _ _ u th _ holds _ _ ok _ there v clears gone owned :=
    vacant_kept (holds.thread u th there v clears gone owned)
      fun value he taken => spares c t e ok value he taken.symm u th v there clears gone owned
  start _ _ _ _ _ _ started _ := by
    obtain ⟨request, -, rfl⟩ := started
    exact fun _ _ h => by cases h
  spawn _ _ _ _ _ _ _ _ _ _ child _ _ := by
    obtain ⟨request, rfl⟩ := spawn_some child
    exact fun _ _ h => by cases h
  crash _ _ _ _ := trivial

section Disk
variable {env : Environment} {t : Nat} {w : World} {directory : String}

theorem exec_file_nodes (certificate : Id) (e : FileSystem.Call) (p : FileSystem.Path) :
    (exec env t (.file certificate e) w).2.fs.nodes p =
      (FileSystem.exec env.host e w.fs).2.nodes p := by
  rw [exec_file_fs]

/-- A call that is no call on the path leaves its node alone. -/
theorem file_frame {certificate : Id} {e : FileSystem.Call} {p : FileSystem.Path}
    (away : ∀ o, e = .op o → ¬ FileSystem.Touches o p) :
    (exec env t (.file certificate e) w).2.fs.nodes p = w.fs.nodes p := by
  rw [exec_file_nodes]
  cases e with
  | op o => exact FileSystem.exec_frame _ _ _ (away o rfl)
  | now => rfl
  | range values => rfl

theorem quiet_frame {certificate : Id} {e : FileSystem.Call} (quiet : Quiet e) (safeName : String) :
    (exec env t (.file certificate e) w).2.fs.nodes (targetOf safeName) =
      w.fs.nodes (targetOf safeName) := by
  refine file_frame fun o he touched => ?_
  subst he
  cases PublishProtocol.touches_backup quiet touched

/-- A publication leaves the directories of other certificates alone. -/
theorem publish_frame {certificate : Id} {e : FileSystem.Call} {own : String} {p : Payload}
    {progress : Progress} (allowed : PublishProtocol.allows own p progress e)
    (named : Named own progress) (safe : safeDirectory directory = true) (other : own ≠ directory) :
    (exec env t (.file certificate e) w).2.fs.nodes (targetOf directory) =
      w.fs.nodes (targetOf directory) := by
  refine file_frame fun o he touched => ?_
  subst he
  rcases PublishProtocol.touches_own allowed named touched with same | hidden | backup
  · exact other (congrArg FileSystem.Path.name same).symm
  · exact PublishProtocol.hidden_ne_target hidden safe rfl
  · cases backup

/-- What `Remove` does to its own directory and to others. -/
theorem removal_frame {certificate : Id} {e : FileSystem.Call} {own : String}
    (removes : removesAt own e)
    (other : own ≠ directory ∨ w.fs.nodes (targetOf directory) = none) :
    (exec env t (.file certificate e) w).2.fs.nodes (targetOf directory) =
      w.fs.nodes (targetOf directory) := by
  obtain ⟨-, rfl | rfl⟩ := removes
  · exact file_frame fun o he touched => by cases he; exact touched
  · by_cases same : own = directory
    · subst same
      rcases other with away | absent
      · exact absurd rfl away
      · rw [exec_file_nodes, absent]
        exact FileSystem.removeAll_none absent
    · refine file_frame fun o he touched => ?_
      cases he
      exact same (congrArg FileSystem.Path.name (show targetOf directory = targetOf own from touched)).symm

end Disk

section Targets
variable {env : Environment} {s : Service} {c : Configuration} {t : Nat} {e : Eff}
  {k : Ans e → Operation (Outcome Unit)} {l : Local} (sound : Sound env s c)
  (running : c.threads t = some ⟨.call e k, l⟩) {directory : String}
include sound running

/-- Nothing appears in a directory that no record owns. -/
theorem absent_kept (names : named.Holds c) (records : (recorded directory).Holds c)
    (safe : safeDirectory directory = true) (vacant : Vacant directory c.world)
    (absent : c.world.fs.nodes (targetOf directory) = none) :
    (exec env t e c.world).2.fs.nodes (targetOf directory) = none := by
  have allowed := sound.allowed running
  cases e with
  | file certificate e =>
    refine Eq.trans ?_ absent
    cases phase : l.phase with
    | working v lock got progress =>
      simp only [allows, allowsFile, phase] at allowed
      cases got with
      | none => exact quiet_frame allowed directory
      | some material =>
        obtain ⟨rfl, -, p, -, allowed⟩ := allowed
        refine publish_frame allowed (names.thread t _ running v lock _ progress phase) safe ?_
        intro taken
        obtain ⟨row, there, same⟩ := publisher_recorded sound records running phase taken
        exact vacant v.id row there (same.trans taken)
    | removing v lock cleared =>
      simp only [allows, allowsFile, phase] at allowed
      exact removal_frame allowed.2 (Or.inr absent)
    | _ =>
      simp only [allows, allowsFile, phase] at allowed
      exact quiet_frame allowed directory
  | _ =>
    rw [exec_fs]
    · exact absent
    · exact fun _ _ h => by cases h

end Targets

/-- A delete that has removed its files. -/
def Cleared (phase : Phase) (v : Certificate) : Prop :=
  (∃ lock, phase = .removing v lock true) ∨ phase = .cleared v

/-- After a delete has removed the files of the directory there is none. -/
def emptied (directory : String) : Assertion Eff Ans World Local (Outcome Unit) where
  world _ := True
  thread _ th w := ∀ v, Cleared th.seen.phase v → v.outputDirectory = directory →
    th.seen.request.clears ∧ safeDirectory directory = true ∧
      w.fs.nodes (targetOf directory) = none

theorem Cleared.gone {phase : Phase} {v : Certificate} (h : Cleared phase v) :
    phase.gone = some v := by
  rcases h with ⟨lock, rfl⟩ | rfl <;> rfl

theorem emptied_own {env : Environment} {t : Nat} {w : World} {request : Request}
    {phase phase' : Phase} {e : Eff} {r : Ans e} {directory : String}
    (allowed : allows request phase e) (move : Move request phase e r phase')
    (answer : (exec env t e w).1 = r)
    (h : ∀ v, Cleared phase v → v.outputDirectory = directory → request.clears ∧
      safeDirectory directory = true ∧ w.fs.nodes (targetOf directory) = none)
    (v : Certificate) (cleared : Cleared phase' v) (owned : v.outputDirectory = directory) :
    request.clears ∧ safeDirectory directory = true ∧
      (exec env t e w).2.fs.nodes (targetOf directory) = none := by
  cases move with
  | stay still =>
    obtain ⟨clears, safe, absent⟩ := h v cleared owned
    refine ⟨clears, safe, ?_⟩
    cases e with
    | file certificate e => exact (quiet_frame still _).trans absent
    | _ =>
      rw [exec_fs]
      · exact absent
      · exact fun _ _ h => by cases h
  | @clear v' lock before certificate e r clears removes =>
    have same : v' = v := Option.some.inj cleared.gone
    subst same
    subst owned
    refine ⟨clears, removes.1, ?_⟩
    have done : noteRemoval before e r = true := by
      rcases cleared with ⟨lock', same⟩ | same
      · exact (Phase.removing.inj same).2.2
      · cases same
    have answer : (FileSystem.exec env.host e w.fs).1 = r := answer
    rcases removes.2 with rfl | rfl
    · cases r with
      | ok info => cases done
      | error err =>
        rcases FileSystem.lstat_error answer with rfl | absent
        · cases done
        · exact (removal_frame removes (Or.inr absent)).trans absent
    · cases r with
      | ok _ =>
        rw [exec_file_nodes]
        exact FileSystem.removeAll_ok answer
      | error err => cases done
  | release mine done next =>
    rcases next with rfl | ⟨v', rfl, rfl⟩
    · cases cleared.gone
    · have same : v' = v := Option.some.inj cleared.gone
      subst same
      exact h v' (Or.inl ⟨_, rfl⟩) owned
  | @remove v' lock event about =>
    rcases cleared with ⟨lock', same⟩ | same <;> cases same
  | _ => cases cleared.gone

theorem emptied_stable {env : Environment} {s : Service}
    {D : Discipline Eff Ans World Local (Outcome Unit)} {directory : String} :
    (emptied directory).Stable (pool env s) D fun c =>
      Sound env s c ∧ named.Holds c ∧ (recorded directory).Holds c ∧
        (vacated directory).Holds c where
  own c t e k l known holds running _ _ := by
    have allowed := known.1.allowed running
    have next := emptied_own allowed (known.1.move running) rfl (holds.thread t _ running)
    exact ⟨trivial, next⟩
  other c t e _ _ u th known holds running _ _ _ there v cleared owned := by
    obtain ⟨sound, names, records, vacancies⟩ := known
    obtain ⟨clears, safe, absent⟩ := holds.thread u th there v cleared owned
    have vacant := vacancies.thread u th there v clears cleared.gone owned
    exact ⟨clears, safe, absent_kept sound running names records safe vacant absent⟩
  start _ _ _ _ _ _ started _ := by
    obtain ⟨request, -, rfl⟩ := started
    exact fun _ cleared _ => by cases cleared.gone
  spawn _ _ _ _ _ _ _ _ _ _ child _ _ := by
    obtain ⟨request, rfl⟩ := spawn_some child
    exact fun _ cleared _ => by cases cleared.gone
  crash _ _ _ _ := trivial

/-- No delete commits in the middle of a creation. -/
abbrev orderly (directory : String) : Discipline Eff Ans World Local (Outcome Unit) :=
  restricted (SparesCreations directory)

/-- Nor does a new record take the directory while it is being cleared. -/
abbrev undisturbed (directory : String) : Discipline Eff Ans World Local (Outcome Unit) :=
  restricted fun c e => SparesCreations directory c e ∧ SparesRemovals directory c e

/-- Nor at any other time. -/
abbrev unclaimed (directory : String) : Discipline Eff Ans World Local (Outcome Unit) :=
  restricted fun c e => SparesCreations directory c e ∧
    ∀ value, e = .store (.createCertificate value) → directory ≠ value.outputDirectory

/-- What is known along orderly runs. -/
structure Orderly (env : Environment) (s : Service) (directory : String) (c : Configuration) :
    Prop where
  sound : Sound env s c
  names : named.Holds c
  records : (recorded directory).Holds c

theorem Orderly.step {env : Environment} {s : Service} {directory : String}
    {D : Discipline Eff Ans World Local (Outcome Unit)}
    (spares : ∀ c t e, D.call c t e → SparesCreations directory c e) {c c' : Configuration}
    (h : Orderly env s directory c) (hs : Step (pool env s) D c c') :
    Orderly env s directory c' where
  sound := h.sound.step hs
  names := named_stable.step h.sound h.names hs
  records := (recorded_stable spares).step h.sound h.records hs

theorem orderly_of_started {env : Environment} {s : Service} {directory : String}
    {c : Configuration} (h : Started c) : Orderly env s directory c :=
  ⟨h.sound, h.holds trivial, h.holds trivial⟩

/-- The output directory of a certificate is the one its operations work with. -/
def located (id : Id) (directory : String) : Assertion Eff Ans World Local (Outcome Unit) where
  world w := id < w.db.certificates.next ∧
    ∀ row, w.db.row id = some row → row.outputDirectory = directory
  thread _ th _ := ∀ v, th.seen.phase.value = some v → v.id = id → v.outputDirectory = directory

theorem located_own {env : Environment} {t : Nat} {w : World} {request : Request}
    {phase phase' : Phase} {e : Eff} {r : Ans e} {id : Id} {directory : String}
    (old : id < w.db.certificates.next)
    (world : ∀ row, w.db.row id = some row → row.outputDirectory = directory)
    (move : Move request phase e r phase') (answer : (exec env t e w).1 = r)
    (h : ∀ v, phase.value = some v → v.id = id → v.outputDirectory = directory) (v : Certificate)
    (value : phase'.value = some v) (same : v.id = id) : v.outputDirectory = directory := by
  cases move with
  | @read _ key v' fresh numbered =>
    cases value
    exact world v (same ▸ numbered ▸ SqliteStore.certificate_ok answer)
  | create creates issuing =>
    cases value
    obtain ⟨rfl, -⟩ := SqliteStore.createCertificate_ok answer
    exact absurd same (Nat.ne_of_gt old)
  | release mine done next =>
    rcases next with rfl | ⟨v', rfl, rfl⟩
    · cases value
    · exact h v value same
  | refuse => cases value
  | _ => exact h v value same

theorem located_stable {env : Environment} {s : Service}
    {D : Discipline Eff Ans World Local (Outcome Unit)} {id : Id} {directory : String} :
    (located id directory).Stable (pool env s) D (Sound env s) where
  own c t e k l sound holds running _ _ := by
    obtain ⟨old, world⟩ := holds.world
    refine ⟨⟨Nat.lt_of_lt_of_le old exec_next_mono, fun row there => ?_⟩, ?_⟩
    · obtain ⟨c₀, before, same⟩ := row_old old there
      exact same.trans (world c₀ before)
    · have next := located_own old world (sound.move running) rfl (holds.thread t _ running)
      exact next
  other _ _ _ _ _ u th _ holds _ _ _ _ there := holds.thread u th there
  start _ _ _ _ _ _ started _ := by
    obtain ⟨request, -, rfl⟩ := started
    exact fun _ h => by cases h
  spawn _ _ _ _ _ _ _ _ _ _ child _ _ := by
    obtain ⟨request, rfl⟩ := spawn_some child
    exact fun _ h => by cases h
  crash _ _ holds _ := holds.world

/-- A deleted certificate and what had been published for it. -/
def retired (id : Id) (published : List (Id × String × FileSystem.Node)) :
    Assertion Eff Ans World Local (Outcome Unit) where
  world w := id < w.db.certificates.next ∧ w.db.row id = none ∧ publicationsOf id w = published
  thread _ _ _ := True

theorem retired_stable (env : Environment) (s : Service) (id : Id) (directory : String)
    (published : List (Id × String × FileSystem.Node)) :
    (retired id published).Stable (pool env s) (orderly directory)
      fun c => Orderly env s directory c ∧ (located id directory).Holds c where
  own c t e k l known holds running _ _ := by
    obtain ⟨known, places⟩ := known
    obtain ⟨old, gone, same⟩ := holds.world
    refine ⟨⟨Nat.lt_of_lt_of_le old exec_next_mono, row_gone old gone, ?_⟩, trivial⟩
    refine (publications_kept (known.sound.allowed running) id ?_).trans same
    rintro v lock material progress phase rfl
    have owned : v.outputDirectory = directory :=
      places.thread t _ running v (by rw [phase]; rfl) rfl
    obtain ⟨row, there, -⟩ := publisher_recorded known.sound known.records running phase owned
    cases gone.symm.trans there
  other _ _ _ _ _ _ _ _ _ _ _ _ _ _ := trivial
  start _ _ _ _ _ _ _ _ := trivial
  spawn _ _ _ _ _ _ _ _ _ _ _ _ _ := trivial
  crash _ _ holds _ := holds.world

/-- A directory without an owner and without files. -/
def empty (directory : String) : Assertion Eff Ans World Local (Outcome Unit) where
  world w := Vacant directory w ∧ w.fs.nodes (targetOf directory) = none
  thread _ _ _ := True

theorem empty_stable (env : Environment) (s : Service) {directory : String}
    (safe : safeDirectory directory = true) :
    (empty directory).Stable (pool env s) (unclaimed directory) (Orderly env s directory) where
  own c t e k l known holds running _ ok := by
    obtain ⟨vacant, absent⟩ := holds.world
    exact ⟨⟨vacant_kept vacant ok.2,
      absent_kept known.sound running known.names known.records safe vacant absent⟩, trivial⟩
  other _ _ _ _ _ _ _ _ _ _ _ _ _ _ := trivial
  start _ _ _ _ _ _ _ _ := trivial
  spawn _ _ _ _ _ _ _ _ _ _ _ _ _ := trivial
  crash _ _ holds _ := holds.world

/-- What is known along undisturbed runs. -/
structure Undisturbed (env : Environment) (s : Service) (directory : String) (c : Configuration) :
    Prop where
  orderly : Orderly env s directory c
  vacancies : (vacated directory).Holds c
  empties : (emptied directory).Holds c

theorem Undisturbed.reach {env : Environment} {s : Service} {directory : String}
    {c c' : Configuration} (h : Undisturbed env s directory c)
    (run : Reach (pool env s) (undisturbed directory) c c') : Undisturbed env s directory c' := by
  refine Reach.invariant _ _ (fun c c' known hs => ?_) run h
  obtain ⟨orderly, vacancies, empties⟩ := known
  exact ⟨orderly.step (D := undisturbed directory) (fun _ _ _ ok => ok.1) hs,
    (vacated_stable (D := undisturbed directory) fun _ _ _ ok => ok.2).step orderly.sound
      vacancies hs,
    emptied_stable.step ⟨orderly.sound, orderly.names, orderly.records, vacancies⟩ empties hs⟩

/-- A delete with files that has returned without an error. -/
theorem Undisturbed.returned {env : Environment} {s : Service} {directory : String}
    {c : Configuration} (h : Undisturbed env s directory c) {id : Id}
    (places : (located id directory).Holds c) {t : Nat} {l : Local} {actor clientIP : String}
    (there : c.threads t = some ⟨.ret (.ok ()), l⟩)
    (deletes : l.request = .delete id true actor clientIP) :
    safeDirectory directory = true ∧ (empty directory).Holds c := by
  have ends : Ends l.request (.ok ()) l.phase := h.orderly.sound.protocol.thread t _ there
  obtain ⟨v, numbered, phase⟩ := ends.cleared _ _ _ deletes rfl
  have cleared : Cleared l.phase v := Or.inr phase
  have owned : v.outputDirectory = directory :=
    places.thread t _ there v (by rw [phase]; rfl) numbered
  obtain ⟨clears, safe, absent⟩ := h.empties.thread t _ there v cleared owned
  have vacant := h.vacancies.thread t _ there v clears cleared.gone owned
  exact ⟨safe, ⟨vacant, absent⟩, fun _ _ _ => trivial⟩

/-- From a stored certificate on: when no delete commits in the middle of a
creation, nothing is published for a certificate after its record is gone; and
when no new record takes its directory while that is being cleared, a delete
with files that returns without an error leaves no directory, until a new record
takes it. -/
theorem nothing_after_delete {env : Environment} {s : Service} {id : Id} {row : Certificate}
    {start c₀ c₁ c₂ : Configuration} (started : Started start)
    (before : Reach (pool env s) (orderly row.outputDirectory) start c₀)
    (stored : c₀.world.db.row id = some row)
    (run : Reach (pool env s) (orderly row.outputDirectory) c₀ c₁) :
    (c₁.world.db.row id = none → Reach (pool env s) (orderly row.outputDirectory) c₁ c₂ →
        publicationsOf id c₂.world = publicationsOf id c₁.world) ∧
      (Reach (pool env s) (undisturbed row.outputDirectory) start c₀ →
        Reach (pool env s) (undisturbed row.outputDirectory) c₀ c₁ →
        ∀ t l actor clientIP, c₁.threads t = some ⟨.ret (.ok ()), l⟩ →
          l.request = .delete id true actor clientIP →
        Reach (pool env s) (unclaimed row.outputDirectory) c₁ c₂ →
          c₂.world.fs.nodes (targetOf row.outputDirectory) = none) := by
  have steps : ∀ c c', Orderly env s row.outputDirectory c →
      Step (pool env s) (orderly row.outputDirectory) c c' →
      Orderly env s row.outputDirectory c' :=
    fun _ _ h hs => h.step (fun _ _ _ ok => ok) hs
  have known₀ : Orderly env s row.outputDirectory c₀ :=
    Reach.invariant _ _ steps before (orderly_of_started started)
  have places : (located id row.outputDirectory).Holds c₀ := by
    refine ⟨⟨Db.lt_next_of_row stored, fun row' there => ?_⟩, fun t th there v value same => ?_⟩
    · cases stored.symm.trans there
      rfl
    · exact ((known₀.sound.standing there).directory v row value (same ▸ stored)).symm
  have steps' : ∀ c c', (Orderly env s row.outputDirectory c ∧
      (located id row.outputDirectory).Holds c) → Step (pool env s) (orderly row.outputDirectory) c c' →
      Orderly env s row.outputDirectory c' ∧ (located id row.outputDirectory).Holds c' :=
    fun c c' h hs => ⟨steps c c' h.1 hs, located_stable.step h.1.sound h.2 hs⟩
  obtain ⟨known₁, places₁⟩ := Reach.invariant _ _ steps' run ⟨known₀, places⟩
  refine ⟨fun gone later => ?_, fun calm₀ calm t l actor clientIP there deletes later => ?_⟩
  · have quiet : (retired id (publicationsOf id c₁.world)).Holds c₁ :=
      ⟨⟨places₁.world.1, gone, rfl⟩, fun _ _ _ => trivial⟩
    exact ((retired_stable env s id _ _).reach steps' later ⟨known₁, places₁⟩ quiet).2.world.2.2
  · have first : Undisturbed env s row.outputDirectory start :=
      ⟨orderly_of_started started, started.holds trivial, started.holds trivial⟩
    obtain ⟨safe, emptied⟩ := ((first.reach calm₀).reach calm).returned places₁ there deletes
    have steps'' : ∀ c c', Orderly env s row.outputDirectory c →
        Step (pool env s) (unclaimed row.outputDirectory) c c' →
        Orderly env s row.outputDirectory c' :=
      fun _ _ h hs => h.step (D := unclaimed row.outputDirectory) (fun _ _ _ ok => ok.1) hs
    exact ((empty_stable env s safe).reach steps'' later known₁ emptied).2.world.2

/-- A creation of a second certificate. -/
def creation (directory : String) : Request :=
  .createACME { name := "second"
                primaryDomain := "example.com"
                sans := []
                keyType := "ec-256"
                outputDirectory := directory
                autoRenewEnabled := false
                renewBeforeDays := 30
                createRenewedMarker := false
                challengeType := "http-01"
                dnsCredentialID := ""
                caDirectoryURL := ""
                acmeEmail := "" } "admin" ""

def deletion (id : Id) : Request := .delete id true "admin" ""

/-- What there is of a certificate and of a directory, and which request thread 0
has served without an error. -/
structure Observed where
  stored : Option String
  published : Nat
  present : Bool
  owned : Bool
  served : Option Request
  deriving DecidableEq

def served (c : Configuration) : Option Request :=
  match c.threads 0 with
  | some ⟨.ret (.ok ()), l⟩ => some l.request
  | _ => none

def observe (id : Id) (directory : String) (c : Configuration) : Observed where
  stored := (c.world.db.row id).map (·.outputDirectory)
  published := (publicationsOf id c.world).length
  present := (c.world.fs.nodes (targetOf directory)).isSome
  owned := c.world.db.certificates.rows.any fun row => row.outputDirectory = directory
  served := served c

theorem served_some {c : Configuration} {request : Request} (h : served c = some request) :
    ∃ l, c.threads 0 = some ⟨.ret (.ok ()), l⟩ ∧ l.request = request := by
  unfold served at h
  split at h
  · rename_i l there
    exact ⟨l, there, Option.some.inj h⟩
  · cases h

theorem vacant_of_observed {id : Id} {directory : String} {c : Configuration}
    (h : (observe id directory c).owned = false) : Vacant directory c.world := by
  intro key row there same
  have found := (KeyedTables.Table.find?_eq_some_iff.mp there).1
  have unowned : ¬ (observe id directory c).owned = true := by rw [h]; exact Bool.noConfusion
  exact unowned (List.any_eq_true.mpr ⟨row, found, decide_eq_true same⟩)

/-- The checks of `unclaimed`, as far as two threads need them. -/
def attends (directory : String) (c : Configuration) (_ : Nat) (e : Eff) : Bool :=
  match e with
  | .store (.createCertificate value) => value.outputDirectory ≠ directory
  | .store (.deleteCertificateWithAudit id _) =>
    [0, 1].all fun t => (c.threads t).all fun th =>
      th.seen.phase.creating.all fun v => v.id ≠ id
  | _ => true

theorem creating_of_creates {phase : Phase} {v : Certificate} (h : Creates phase v) :
    phase.creating = some v := by
  rcases h with rfl | ⟨got, progress, rfl⟩ <;> rfl

theorem attends_unclaimed {directory : String} {c : Configuration} {t : Nat} {e : Eff}
    (bounded : ∀ u, 2 ≤ u → c.threads u = none) (h : attends directory c t e = true) :
    (unclaimed directory).call c t e := by
  constructor
  · rintro id event rfl u th v there creates - same
    have near : u ∈ [0, 1] := by
      by_contra away
      rw [bounded u (by simp at away; omega)] at there
      cases there
    have checked := List.all_eq_true.mp h u near
    rw [there] at checked
    simp [creating_of_creates creates, same] at checked
  · rintro value rfl
    exact fun same => of_decide_eq_true h same.symm

theorem undisturbed_of_unclaimed {directory : String} {c : Configuration} {t : Nat} {e : Eff}
    (h : (unclaimed directory).call c t e) : (undisturbed directory).call c t e :=
  ⟨h.1, fun value he same => absurd same.symm (h.2 value he)⟩

section Schedules
variable {directory : String} {schedule : List Nat} {c c' : Configuration}

/-- What has been checked call by call is a run of the discipline. -/
theorem attended_reach {D : Discipline Eff Ans World Local (Outcome Unit)}
    (weaker : ∀ c t e, (unclaimed directory).call c t e → D.call c t e)
    (bounded : ∀ u, 2 ≤ u → c.threads u = none)
    (played : playing (attends directory) schedule c = some c') :
    Reach (pool sampleEnvironment sampleService) D c c' :=
  play_reach_of (I := fun c => ∀ u, 2 ≤ u → c.threads u = none)
    (fun _ _ _ => advance_bounded)
    (fun c t e bounded h => weaker c t e (attends_unclaimed bounded h)) played bounded

end Schedules

/-- A renewal reads the certificate, a delete runs, and the renewal goes on. -/
theorem nothing_after_delete_in_turn : ∃ c₁ c₂ : Configuration,
    c₁.world.db.row 0 = none ∧ publicationsOf 0 c₂.world = publicationsOf 0 c₁.world ∧
      c₂.world.fs.nodes (targetOf "example-com") = none := by
  have played : ((playing (attends "example-com") (1 :: List.replicate 11 0)
      (requested sampleWorld [.renew 0 false "admin" "", deletion 0])).bind fun c₁ =>
      (playing (attends "example-com") (List.replicate 4 1) c₁).map fun _ =>
        (c₁.world.db.row 0, served c₁)) = some (none, some (deletion 0)) := by
    decide +kernel
  obtain ⟨c₁, deletes, rest⟩ := Option.bind_eq_some_iff.mp played
  obtain ⟨c₂, renews, seen⟩ := Option.map_eq_some_iff.mp rest
  obtain ⟨gone, request⟩ := Prod.mk.inj seen
  obtain ⟨l, there, same⟩ := served_some request
  have bounded := requested_free sampleWorld [.renew 0 false "admin" "", deletion 0]
  have begun : ∀ {P : Configuration → Eff → Prop},
      Reach (pool sampleEnvironment sampleService) (restricted P) (requested sampleWorld [])
        (requested sampleWorld [.renew 0 false "admin" "", deletion 0]) :=
    requested_reach _ (fun _ _ => trivial) _ _ (by decide)
  have later := play_bounded bounded deletes
  have stored : (requested sampleWorld [.renew 0 false "admin" "", deletion 0]).world.db.row 0 =
      some sampleCertificate := rfl
  obtain ⟨quiet, cleared⟩ := nothing_after_delete (requested_started fun _ => rfl) begun stored
    (attended_reach (fun _ _ _ ok => ok.1) bounded deletes)
  exact ⟨c₁, c₂, gone, quiet gone (attended_reach (fun _ _ _ ok => ok.1) later renews),
    cleared begun (attended_reach (fun _ _ _ => undisturbed_of_unclaimed) bounded deletes) 0 l _ _
      there same (attended_reach (fun _ _ _ ok => ok) later renews)⟩

/-- A delete commits in the middle of a creation and returns; then the creation
publishes. -/
theorem published_after_delete : ∃ c₀ c₁ c₂ : Configuration,
    Reach (pool sampleEnvironment sampleService) .any (requested sampleWorld []) c₀ ∧
      (∃ row, c₀.world.db.row 1 = some row ∧ row.outputDirectory = "second") ∧
      Reach (pool sampleEnvironment sampleService) .any c₀ c₁ ∧ c₁.world.db.row 1 = none ∧
      (∃ l, c₁.threads 0 = some ⟨.ret (.ok ()), l⟩ ∧ l.request = deletion 1) ∧
      Reach (pool sampleEnvironment sampleService) .any c₁ c₂ ∧
      publicationsOf 1 c₂.world ≠ publicationsOf 1 c₁.world ∧ Vacant "second" c₂.world ∧
      c₂.world.fs.nodes (targetOf "second") ≠ none := by
  have played : ((playing (fun _ _ _ => true) (List.replicate 4 1)
      (requested sampleWorld [creation "second", deletion 1])).bind fun c₀ =>
      (playing (fun _ _ _ => true) (List.replicate 11 0) c₀).bind fun c₁ =>
      (playing (fun _ _ _ => true) (List.replicate 18 1) c₁).map fun c₂ =>
        (observe 1 "second" c₀, observe 1 "second" c₁, observe 1 "second" c₂)) =
      some (⟨some "second", 0, false, true, none⟩, ⟨none, 0, false, false, some (deletion 1)⟩,
        ⟨none, 1, true, false, some (deletion 1)⟩) := by
    decide +kernel
  obtain ⟨c₀, creates, rest⟩ := Option.bind_eq_some_iff.mp played
  obtain ⟨c₁, deletes, rest⟩ := Option.bind_eq_some_iff.mp rest
  obtain ⟨c₂, publishes, seen⟩ := Option.map_eq_some_iff.mp rest
  obtain ⟨seen₀, seen₁, seen₂⟩ := Prod.mk.inj seen |>.imp id Prod.mk.inj
  have begun : Reach (pool sampleEnvironment sampleService) .any (requested sampleWorld [])
      (requested sampleWorld [creation "second", deletion 1]) :=
    requested_reach _ (fun _ _ => trivial) _ _ (by decide)
  refine ⟨c₀, c₁, c₂, begun.trans (played_reach creates),
    Option.map_eq_some_iff.mp (congrArg Observed.stored seen₀),
    played_reach deletes,
    Option.map_eq_none_iff.mp (congrArg Observed.stored seen₁),
    served_some (congrArg Observed.served seen₁),
    played_reach publishes, fun same => ?_,
    vacant_of_observed (congrArg Observed.owned seen₂), fun absent => ?_⟩
  · have before : (publicationsOf 1 c₁.world).length = 0 := congrArg Observed.published seen₁
    have after : (publicationsOf 1 c₂.world).length = 1 := congrArg Observed.published seen₂
    rw [same, before] at after
    cases after
  · have present : (c₂.world.fs.nodes (targetOf "second")).isSome = true :=
      congrArg Observed.present seen₂
    rw [absent] at present
    cases present

def deletes : Request → Prop
  | .delete _ _ _ _ => True
  | _ => False

/-- The phases in which certificates are issued. -/
def Issuing : Phase → Prop
  | .marked _ _ | .working _ _ _ _ => True
  | _ => False

/-- A delete issues nothing. -/
def idleDeletes : Assertion Eff Ans World Local (Outcome Unit) where
  world _ := True
  thread _ th _ := deletes th.seen.request → ¬ Issuing th.seen.phase

theorem issuing_before {request : Request} {phase phase' : Phase} {e : Eff} {r : Ans e}
    (move : Move request phase e r phase') (delete : deletes request) (issuing : Issuing phase') :
    Issuing phase := by
  cases move with
  | stay still => exact issuing
  | create creates _ => cases request <;> first | exact creates.elim | exact delete.elim
  | mark gate target => cases request <;> first | exact delete.elim | cases gate
  | release mine done next => rcases next with rfl | ⟨v, -, rfl⟩ <;> exact issuing.elim
  | work | giveUp | deliver | publish | record | fail => trivial
  | _ => exact issuing.elim

theorem idleDeletes_stable {env : Environment} {s : Service}
    {D : Discipline Eff Ans World Local (Outcome Unit)} :
    idleDeletes.Stable (pool env s) D (Sound env s) where
  own _ t _ _ _ sound holds running _ _ :=
    ⟨trivial, fun delete issuing =>
      holds.thread t _ running delete (issuing_before (sound.move running) delete issuing)⟩
  other _ _ _ _ _ u _ _ holds _ _ _ _ there := holds.thread u _ there
  start _ _ _ _ _ _ started _ := by
    obtain ⟨request, -, rfl⟩ := started
    exact fun _ h => h.elim
  spawn _ _ _ _ _ _ _ _ _ _ child _ _ := by
    obtain ⟨request, rfl⟩ := spawn_some child
    exact fun _ h => h.elim
  crash _ _ _ _ := trivial

/-- As long as no record is inserted for the directory of a stored certificate
while a delete clears it, no call of a delete changes that directory. -/
theorem delete_spares_others {env : Environment} {s : Service} {start c : Configuration}
    (started : Started start) {id : Id} {row : Certificate}
    (run : Reach (pool env s) (restricted (SparesRemovals row.outputDirectory)) start c)
    (stored : c.world.db.row id = some row) {t : Nat} {e : Eff}
    {k : Ans e → Operation (Outcome Unit)} {l : Local}
    (running : c.threads t = some ⟨.call e k, l⟩) (delete : deletes l.request) :
    (exec env t e c.world).2.fs.nodes (targetOf row.outputDirectory) =
      c.world.fs.nodes (targetOf row.outputDirectory) := by
  have sound₀ : Sound env s start := started.sound
  have sound := sound₀.reach run
  have idle := (idleDeletes_stable.reach (fun _ _ => Sound.step) run sound₀ (started.holds trivial)).2
  have vacancies := ((vacated_stable fun _ _ _ ok => ok).reach (fun _ _ => Sound.step) run sound₀
    (started.holds trivial)).2
  have allowed := sound.allowed running
  cases e with
  | file certificate e =>
    cases phase : l.phase with
    | working v lock got progress =>
      exact absurd (by rw [phase]; trivial) (idle.thread t _ running delete)
    | removing v lock cleared =>
      simp only [allows, allowsFile, phase] at allowed
      refine removal_frame allowed.2 (Or.inl fun same => ?_)
      have vacant := vacancies.thread t _ running v allowed.1 (by rw [phase]; rfl) same
      exact vacant id row stored rfl
    | _ =>
      simp only [allows, allowsFile, phase] at allowed
      exact quiet_frame allowed row.outputDirectory
  | _ =>
    rw [exec_fs]
    exact fun _ _ h => by cases h

/-- The call that thread 0 is about to make is the removal of the directory. -/
def removesNext (directory : String) (c : Configuration) : Bool :=
  match c.threads 0 with
  | some ⟨.call (.file _ (.op (.removeAll p))) _, l⟩ =>
    p = targetOf directory && l.request = deletion 0
  | _ => false

theorem removal_of_next {directory : String} {c : Configuration}
    (h : removesNext directory c = true) : ∃ certificate k l,
      c.threads 0 = some ⟨.call (.file certificate (.op (.removeAll (targetOf directory)))) k, l⟩ ∧
        l.request = deletion 0 := by
  unfold removesNext at h
  split at h
  · rename_i certificate p k l there
    rw [Bool.and_eq_true, decide_eq_true_eq, decide_eq_true_eq] at h
    obtain ⟨rfl, request⟩ := h
    exact ⟨certificate, k, l, there, request⟩
  · cases h

/-- The sample world with a second certificate, the files of both in place. -/
def servedWorld : World :=
  { sampleWorld with
    db := { sampleDb with
      certificates := ⟨[sampleCertificate,
        { sampleCertificate with id := 1, outputDirectory := "second" }], 2, by decide, by decide⟩
      unique := by decide }
    fs := ⟨some .dir, true, fun p =>
      if p = targetOf "second" ∨ p = targetOf "example-com" then some (.dir sampleDirectory)
      else none, 0, 0, []⟩ }

/-- A delete about to remove its own directory leaves the other one alone. -/
theorem delete_spares_others_second : ∃ c : Configuration, ∃ certificate k l,
    c.threads 0 =
        some ⟨.call (.file certificate (.op (.removeAll (targetOf "example-com")))) k, l⟩ ∧
      (exec sampleEnvironment 0 (.file certificate (.op (.removeAll (targetOf "example-com"))))
          c.world).2.fs.nodes (targetOf "second") = c.world.fs.nodes (targetOf "second") := by
  have played : ((playing (attends "second") (List.replicate 44 0)
      (requested servedWorld [deletion 0])).map fun c =>
        (removesNext "example-com" c, (c.world.db.row 1).map (·.outputDirectory))) =
      some (true, some "second") := by
    decide +kernel
  obtain ⟨c, run, seen⟩ := Option.map_eq_some_iff.mp played
  obtain ⟨next, found⟩ := Prod.mk.inj seen
  obtain ⟨certificate, k, l, there, request⟩ := removal_of_next next
  obtain ⟨row, stored, owned⟩ := Option.map_eq_some_iff.mp found
  have begun : Reach (pool sampleEnvironment sampleService) (restricted (SparesRemovals "second"))
      (requested servedWorld []) (requested servedWorld [deletion 0]) :=
    requested_reach _ (fun _ _ => trivial) _ _ (by decide)
  have reached := begun.trans (attended_reach (fun _ _ _ ok => (undisturbed_of_unclaimed ok).2)
    (fun u hu => requested_free _ _ u (Nat.le_of_succ_le hu)) run)
  refine ⟨c, certificate, k, l, there, ?_⟩
  rw [← owned] at reached ⊢
  exact delete_spares_others (requested_started fun _ => rfl) reached stored there
    (by rw [request]; trivial)

/-- The files in the directory are those of the last publication, made for the
certificate. -/
def servesLast (id : Id) (directory : String) (c : Configuration) : Bool :=
  match c.world.publications with
  | [] => false
  | (certificate, name, node) :: _ =>
    certificate = id && name = directory && c.world.fs.nodes (targetOf directory) = some node

theorem published_of_servesLast {id : Id} {directory : String} {c : Configuration}
    (h : servesLast id directory c = true) : ∃ node, (id, directory, node) ∈ c.world.publications ∧
      c.world.fs.nodes (targetOf directory) = some node := by
  unfold servesLast at h
  split at h
  · cases h
  · rename_i certificate name node rest same
    simp only [Bool.and_eq_true, decide_eq_true_eq] at h
    obtain ⟨⟨rfl, rfl⟩, there⟩ := h
    exact ⟨node, same ▸ List.mem_cons_self, there⟩

/-- A creation takes the directory between the commit of a delete and its
removal, publishes, and loses its files to the delete. -/
theorem delete_removes_published : ∃ c : Configuration,
    Reach (pool sampleEnvironment sampleService) .any (requested sampleWorld []) c ∧
      (∃ row, c.world.db.row 1 = some row ∧ row.outputDirectory = "example-com") ∧
      (∃ node, (1, "example-com", node) ∈ c.world.publications ∧
        c.world.fs.nodes (targetOf "example-com") = some node) ∧
      ∃ certificate k l,
        c.threads 0 =
            some ⟨.call (.file certificate (.op (.removeAll (targetOf "example-com")))) k, l⟩ ∧
          l.request = deletion 0 ∧
          (exec sampleEnvironment 0 (.file certificate (.op (.removeAll (targetOf "example-com"))))
            c.world).2.fs.nodes (targetOf "example-com") = none := by
  have played : (((playing (fun _ _ _ => true) (List.replicate 7 0)
      (requested sampleWorld [creation "example-com", deletion 0])).bind
        (playing (fun _ _ _ => true) (List.replicate 26 1))).bind
        (playing (fun _ _ _ => true) [0, 0])).map (fun c =>
          ((c.world.db.row 1).map (·.outputDirectory), servesLast 1 "example-com" c,
            removesNext "example-com" c,
            (FileSystem.exec FileSystem.calmHost (.op (.removeAll (targetOf "example-com")))
              c.world.fs).2.nodes (targetOf "example-com"))) =
      some (some "example-com", true, true, none) := by
    decide +kernel
  obtain ⟨c, run, seen⟩ := Option.map_eq_some_iff.mp played
  obtain ⟨d, run, removes⟩ := Option.bind_eq_some_iff.mp run
  obtain ⟨b, deletes, creates⟩ := Option.bind_eq_some_iff.mp run
  obtain ⟨found, seen⟩ := Prod.mk.inj seen
  obtain ⟨served, seen⟩ := Prod.mk.inj seen
  obtain ⟨next, removed⟩ := Prod.mk.inj seen
  obtain ⟨certificate, k, l, there, request⟩ := removal_of_next next
  have begun : Reach (pool sampleEnvironment sampleService) .any (requested sampleWorld [])
      (requested sampleWorld [creation "example-com", deletion 0]) :=
    requested_reach _ (fun _ _ => trivial) _ _ (by decide)
  exact ⟨c, begun.trans ((played_reach deletes).trans
      ((played_reach creates).trans (played_reach removes))),
    Option.map_eq_some_iff.mp found, published_of_servesLast served, certificate, k, l, there,
    request, (exec_file_nodes _ _ _).trans removed⟩

end DeleteExclusion
