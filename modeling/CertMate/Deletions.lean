import CertMate.CertificateService
import CertMate.CompleteBackups
import CertMate.DeleteTransaction

/-!
# Deletion and history

`Delete` of the service, with the transaction of its record run call by call.
Any call of the disk, of the store or of the transaction may fail.
-/
namespace Deletions
open CertificateModel CallTrees ServiceWorld CertificateService CompleteBackups
open SqliteStore (Db newEvent)
open SqliteStore.Db (unlinkRun unlinkEvent)
open CertificateFiles (Files targetOf backup removeDirectory)
open DeleteTransaction (Failure Connection deleteCertificateWithAudit transaction_atomic)

section Handler
variable (env : Environment) (fails : Nat → Option Failure) (t : Nat)

/-- How the transaction of a deletion ends. -/
def transaction (id : Id) (event : Event) (db : Db) : Except Error Unit × Db :=
  let r := run (DeleteTransaction.exec fails)
    (deleteCertificateWithAudit id (newEvent (env.backend.clock db.calls) event)) (.opened db)
  (r.1, r.2.db)

/-- The calls of the service, the transaction in place of the one call of the store
that it is otherwise taken for. -/
def exec : (e : Eff) → World → Ans e × World
  | .store (.deleteCertificateWithAudit id event), w =>
    ((transaction env fails id event w.db).1,
      { w with db := (transaction env fails id event w.db).2.tick })
  | e, w => ServiceWorld.exec env t e w

end Handler

/-- The record is gone, and what there was of history is there, with no link to it. -/
structure Gone (id : Id) (db db' : Db) : Prop where
  row : db'.row id = none
  others : ∀ j, j ≠ id → db'.row j = db.row j
  jobs : db'.jobs.rows = db.jobs.rows.map (unlinkRun id)
  audits : ∃ e, db'.audits.rows = db.audits.rows.map (unlinkEvent id) ++ [e] ∧
    e.certificateID = none ∧ e.eventType = "certificate.delete" ∧ e.result = "succeeded" ∧
    ("certificate_id", .id id) ∈ e.detail

/-- Everything is as it was, but for an event that says so. -/
structure Unchanged (w w' : World) : Prop where
  certificates : w'.db.certificates = w.db.certificates
  jobs : w'.db.jobs = w.db.jobs
  audits : w'.db.audits.rows = w.db.audits.rows ∨ ∃ e, w'.db.audits.rows = w.db.audits.rows ++ [e] ∧
    e.eventType = "certificate.delete" ∧ e.result = "failed"
  directories : ∀ name, w'.fs.nodes (targetOf name) = w.fs.nodes (targetOf name)

/-- All or nothing. -/
inductive Settled (id : Id) (w : World) : Outcome Unit × World → Prop
  | all {o : Outcome Unit} {w' : World} (gone : Gone id w.db w'.db) : Settled id w (o, w')
  | nothing {err : Error} {w' : World} (same : Unchanged w w') : Settled id w (.error err, w')

/-- Counted from an earlier state with the same tables and directories. -/
theorem Settled.since {id : Id} {w w₁ : World} {r : Outcome Unit × World} (h : Settled id w₁ r)
    (db : w₁.db = w.db ∨ w₁.db = w.db.tick)
    (directories : ∀ name, w₁.fs.nodes (targetOf name) = w.fs.nodes (targetOf name)) :
    Settled id w r := by
  obtain ⟨certificates, jobs, audits⟩ : w₁.db.certificates = w.db.certificates ∧
      w₁.db.jobs = w.db.jobs ∧ w₁.db.audits = w.db.audits := by
    rcases db with same | same
    · rw [same]
      exact ⟨rfl, rfl, rfl⟩
    · rw [same]
      exact ⟨rfl, rfl, rfl⟩
  cases h with
  | all gone =>
    refine .all ⟨gone.row, fun j other => ?_, ?_, ?_⟩
    · rw [gone.others j other, Db.row, Db.row, certificates]
    · rw [gone.jobs, jobs]
    · rw [← audits]
      exact gone.audits
  | nothing same =>
    refine .nothing ⟨same.certificates.trans certificates, same.jobs.trans jobs, ?_, fun name => ?_⟩
    · rw [← audits]
      exact same.audits
    · rw [same.directories, directories]

/-- A directory that has changed has been backed up. -/
def Guarded (s : FileSystem.Fs) (safeName : String) (s' : FileSystem.Fs) : Prop :=
  s'.nodes (targetOf safeName) ≠ s.nodes (targetOf safeName) → BackedUp s s' safeName

section Calls
variable {env : Environment} {fails : Nat → Option Failure} {t : Nat}

theorem publisher_run {α : Type} (certificate : Id) (p : Files α) (w : World) :
    ∃ w', run (exec env fails t) (publisher certificate p) w =
        ((run (FileSystem.exec env.host) p w.fs).1, w') ∧
      w'.fs = (run (FileSystem.exec env.host) p w.fs).2 ∧ w'.db = w.db := by
  induction p generalizing w with
  | ret a => exact ⟨w, rfl, rfl, rfl⟩
  | call e k ih =>
    have disk : (exec env fails t (.file certificate e) w).2.fs =
        (FileSystem.exec env.host e w.fs).2 := by
      simp only [exec, ServiceWorld.exec, execFile]
      split
      · split <;> rfl
      · rfl
    have kept : (exec env fails t (.file certificate e) w).2.db = w.db := by
      simp only [exec, ServiceWorld.exec, execFile]
      split
      · split <;> rfl
      · rfl
    obtain ⟨w', ran, fs, db⟩ := ih (FileSystem.exec env.host e w.fs).1
      (exec env fails t (.file certificate e) w).2
    rw [disk] at ran fs
    exact ⟨w', ran, fs, db.trans kept⟩

theorem publisher_through {α : Type} {I : FileSystem.Fs → Prop} (certificate : Id) {p : Files α}
    {w : World} (h : Through (FileSystem.exec env.host) I p w.fs) :
    Through (exec env fails t) (fun w' => I w'.fs) (publisher certificate p) w := by
  induction p generalizing w with
  | ret a => exact h
  | call e k ih =>
    have disk : (exec env fails t (.file certificate e) w).2.fs =
        (FileSystem.exec env.host e w.fs).2 := by
      simp only [exec, ServiceWorld.exec, execFile]
      split
      · split <;> rfl
      · rfl
    refine ⟨h.1, ih _ ?_⟩
    rw [disk]
    exact h.2

/-- The transaction changes all of the tables, or none. -/
theorem transaction_settles (id : Id) (event : Event) (db : Db) :
    (∃ err, (transaction env fails id event db).1 = .error err ∧
        (transaction env fails id event db).2 = db) ∨
      (transaction env fails id event db).1 = .ok () ∧
        (transaction env fails id event db).2 =
          (db.insertEvent (newEvent (env.backend.clock db.calls) event)).deleteCertificate id := by
  have atomic := transaction_atomic fails id (newEvent (env.backend.clock db.calls) event) db
  unfold transaction
  dsimp only
  generalize run (DeleteTransaction.exec fails) (deleteCertificateWithAudit id
    (newEvent (env.backend.clock db.calls) event)) (.opened db) = r at atomic ⊢
  obtain ⟨answer, c⟩ := r
  dsimp only at atomic ⊢
  generalize c.db = after at atomic ⊢
  cases atomic with
  | done known there => exact Or.inr ⟨rfl, rfl⟩
  | undone err => exact Or.inl ⟨err, rfl, rfl⟩

/-- The event is written for the certificate and loses it with all the others. -/
theorem deleted_gone {id : Id} {event : Event} (db : Db) (about : event.certificateID = some id)
    (type : event.eventType = "certificate.delete") (result : event.result = "succeeded")
    (detail : ("certificate_id", Detail.id id) ∈ event.detail) (now : Nat → Time) :
    Gone id db ((db.insertEvent (newEvent now event)).deleteCertificate id).tick := by
  refine ⟨?_, ?_, rfl, ?_⟩
  · rw [Db.row_tick, Db.row_deleteCertificate, if_pos rfl]
  · intro j other
    rw [Db.row_tick, Db.row_deleteCertificate, if_neg other, Db.row_insertEvent]
  · refine ⟨unlinkEvent id { newEvent now event with id := db.audits.next }, ?_, ?_, type, result,
      detail⟩
    · exact List.map_append
    · simp only [unlinkEvent, newEvent, about, if_true]

end Calls

section Operations
variable {env : Environment} {fails : Nat → Option Failure} {t : Nat}
variable (value : Certificate) (deleteFiles : Bool) (actor clientIP : String)

/-- With the backup made, the record goes or nothing has changed. -/
theorem deleteRecord_settled (result : CertificateFiles.BackupResult) (w : World) :
    Settled value.id w
      (run (exec env fails t) (deleteRecord value deleteFiles result actor clientIP) w) := by
  unfold deleteRecord
  rw [Prog.perform_bind, run_call]
  have settled := @transaction_settles env fails value.id (auditEvent value.id "certificate.delete"
    actor clientIP "succeeded" (deleteDetail value deleteFiles result)) w.db
  simp only [exec]
  rcases settled with ⟨err, answer, same⟩ | ⟨answer, moved⟩
  · rw [answer, same]
    exact .nothing ⟨rfl, rfl, Or.inl rfl, fun _ => rfl⟩
  · rw [answer, moved]
    have gone := @deleted_gone value.id (auditEvent value.id "certificate.delete" actor clientIP
      "succeeded" (deleteDetail value deleteFiles result)) w.db rfl rfl rfl
      (by simp [auditEvent, deleteDetail]) (env.backend.clock w.db.calls)
    dsimp only
    split
    · rw [run_bind]
      generalize start : ({ w with db := _ } : World) = w₁
      obtain ⟨w', ran, -, db⟩ := @publisher_run env fails t _ value.id
        (removeDirectory value.outputDirectory) w₁
      rw [ran]
      have gone' : Gone value.id w.db w'.db := by
        rw [db, ← start]
        exact gone
      dsimp only
      split
      · exact .all gone'
      · exact .all gone'
    · exact .all gone

theorem guarded_same {s s' : FileSystem.Fs} {safeName : String}
    (same : s'.nodes (targetOf safeName) = s.nodes (targetOf safeName)) : Guarded s safeName s' :=
  fun changed => absurd same changed

/-- A removal keeps to it when the backup is there, or when there is no directory. -/
theorem removal_guarded {s : FileSystem.Fs} {safeName : String} {w : World}
    (same : w.fs.nodes (targetOf safeName) = s.nodes (targetOf safeName))
    (ready : s.nodes (targetOf safeName) = none ∨ BackedUp s w.fs safeName) (certificate : Id) :
    Through (exec env fails t) (fun w' => Guarded s safeName w'.fs)
      (publisher certificate (removeDirectory safeName)) w := by
  refine publisher_through certificate ?_
  rcases ready with absent | made
  · rw [absent] at same
    refine (removal_leaves_nothing same).mono _ fun s' gone => guarded_same ?_
    rw [gone, absent]
  · refine (removal_leaves_backup made).mono _ fun s' kept => ?_
    intro _
    exact kept

/-- The directory is removed only after the record. -/
theorem deleteRecord_guarded {s : FileSystem.Fs} (result : CertificateFiles.BackupResult)
    {w : World}
    (same : w.fs.nodes (targetOf value.outputDirectory) = s.nodes (targetOf value.outputDirectory))
    (ready : deleteFiles = true → s.nodes (targetOf value.outputDirectory) = none ∨
      BackedUp s w.fs value.outputDirectory) :
    Through (exec env fails t) (fun w' => Guarded s value.outputDirectory w'.fs)
      (deleteRecord value deleteFiles result actor clientIP) w := by
  unfold deleteRecord
  rw [Prog.perform_bind]
  refine ⟨guarded_same same, ?_⟩
  generalize made : exec env fails t (.store (.deleteCertificateWithAudit value.id _)) w = r
  obtain ⟨answer, w₁⟩ := r
  have disk : w₁.fs = w.fs := (congrArg (fun r => r.2.fs) made).symm
  rw [← disk] at same ready
  cases answer with
  | error err => exact guarded_same same
  | ok _ =>
    dsimp only
    split
    · rename_i asked
      have removal := @removal_guarded env fails t s _ w₁ same (ready asked) value.id
      refine (through_bind _ _ _ _ _).mpr ⟨removal, ?_⟩
      have final := removal.final
      generalize run (exec env fails t) (publisher value.id (removeDirectory value.outputDirectory))
        w₁ = r at final ⊢
      obtain ⟨answer, w₂⟩ := r
      cases answer with
      | error err => exact final
      | ok _ => exact ⟨final, final⟩
    · exact ⟨guarded_same same, guarded_same same⟩

/-- A failing backup is reported in the audit. -/
theorem audit_unchanged (event : Event) (type : event.eventType = "certificate.delete")
    (failed : event.result = "failed") (w : World) {w' : World} (certificates : w'.db = w.db)
    (directories : ∀ name, w'.fs.nodes (targetOf name) = w.fs.nodes (targetOf name)) :
    Unchanged w (exec env fails t (.store (.createAuditEvent event)) w').2 := by
  have disk : (exec env fails t (.store (.createAuditEvent event)) w').2.fs = w'.fs := rfl
  have stored : (exec env fails t (.store (.createAuditEvent event)) w').2.db =
      (SqliteStore.exec env.backend (.createAuditEvent event) w'.db).2 := rfl
  have kept : (∀ name, (exec env fails t (.store (.createAuditEvent event)) w').2.fs.nodes
      (targetOf name) = w.fs.nodes (targetOf name)) := fun name => by rw [disk, directories]
  rw [certificates] at stored
  unfold SqliteStore.exec at stored
  split at stored
  · exact ⟨by rw [stored]; rfl, by rw [stored]; rfl, Or.inl (by rw [stored]; rfl), kept⟩
  · simp only [SqliteStore.act] at stored
    split at stored
    · refine ⟨by rw [stored]; rfl, by rw [stored]; rfl, Or.inr ?_, kept⟩
      exact ⟨{ newEvent (env.backend.clock w.db.calls) event with id := w.db.audits.next },
        by rw [stored]; rfl, type, failed⟩
    · exact ⟨by rw [stored]; rfl, by rw [stored]; rfl, Or.inl (by rw [stored]; rfl), kept⟩

/-- What a deletion under its lock comes to. -/
theorem deleteLocked_settled (w : World) : Settled value.id w
    (run (exec env fails t) (deleteLocked value deleteFiles actor clientIP) w) := by
  unfold deleteLocked
  split
  · rw [run_bind]
    obtain ⟨w', ran, fs, db⟩ := @publisher_run env fails t _ value.id
      (backup value.outputDirectory) w
    have directories : ∀ name, w'.fs.nodes (targetOf name) = w.fs.nodes (targetOf name) := by
      intro name
      rw [fs]
      exact (backup_leaves w.fs name).final (FileSystem.exec env.host)
    rw [ran]
    generalize (run (FileSystem.exec env.host) (backup value.outputDirectory) w.fs).1 = answer
    obtain ⟨result, answer⟩ := answer
    cases answer with
    | error err =>
      dsimp only
      unfold audit
      rw [Prog.perform_bind, run_call]
      have same := @audit_unchanged env fails t (auditEvent value.id "certificate.delete" actor
        clientIP "failed" (deleteDetail value true ⟨result.directoryExisted, false⟩)) rfl rfl w w' db
        directories
      generalize exec env fails t (.store (.createAuditEvent _)) w' = r at same ⊢
      obtain ⟨audited, w''⟩ := r
      cases audited with
      | ok _ => exact .nothing same
      | error auditErr => exact .nothing same
    | ok _ =>
      exact (deleteRecord_settled value true actor clientIP result w').since (Or.inl db) directories
  · exact deleteRecord_settled value false actor clientIP ⟨false, false⟩ w

theorem deleteLocked_guarded (w : World) :
    Through (exec env fails t) (fun w' => Guarded w.fs value.outputDirectory w'.fs)
      (deleteLocked value deleteFiles actor clientIP) w := by
  unfold deleteLocked
  split
  · refine (through_bind _ _ _ _ _).mpr ⟨?_, ?_⟩
    · exact (publisher_through value.id (backup_leaves w.fs value.outputDirectory)).mono _
        fun w' same => guarded_same same
    · obtain ⟨w', ran, fs, -⟩ := @publisher_run env fails t _ value.id
        (backup value.outputDirectory) w
      have same : w'.fs.nodes (targetOf value.outputDirectory) =
          w.fs.nodes (targetOf value.outputDirectory) := by
        rw [fs]
        exact (backup_leaves w.fs value.outputDirectory).final (FileSystem.exec env.host)
      rw [ran]
      generalize made : run (FileSystem.exec env.host) (backup value.outputDirectory) w.fs = r at fs ⊢
      obtain ⟨⟨result, answer⟩, disk⟩ := r
      cases answer with
      | error err =>
        dsimp only
        unfold audit
        rw [Prog.perform_bind]
        refine ⟨guarded_same same, ?_⟩
        have disk : (exec env fails t (.store (.createAuditEvent (auditEvent value.id
            "certificate.delete" actor clientIP "failed" (deleteDetail value true
              ⟨result.directoryExisted, false⟩)))) w').2.fs = w'.fs := rfl
        generalize exec env fails t (.store (.createAuditEvent _)) w' = r at disk ⊢
        obtain ⟨audited, w''⟩ := r
        dsimp only at disk
        rw [← disk] at same
        cases audited with
        | ok _ => exact guarded_same same
        | error auditErr => exact guarded_same same
      | ok _ =>
        have ready := backup_ok made
        dsimp only at fs
        rw [← fs] at ready
        exact deleteRecord_guarded value true actor clientIP result same fun _ => ready
  · exact deleteRecord_guarded value false actor clientIP ⟨false, false⟩ rfl (fun h => nomatch h)

end Operations

section Locks
variable {env : Environment} {fails : Nat → Option Failure} {t : Nat} {w : World}

/-- A reading answers with the row. -/
theorem certificate_read (id : Id) :
    (exec env fails t (.store (.certificate id)) w).2.fs = w.fs ∧
      (exec env fails t (.store (.certificate id)) w).2.db = w.db.tick ∧
      ∀ value, (exec env fails t (.store (.certificate id)) w).1 = .ok value →
        w.db.row id = some value := by
  refine ⟨rfl, ?_, ?_⟩
  · change (SqliteStore.exec env.backend (.certificate id) w.db).2 = _
    unfold SqliteStore.exec
    split
    · rfl
    · simp only [SqliteStore.act]
      split <;> rfl
  · intro value h
    change (SqliteStore.exec env.backend (.certificate id) w.db).1 = _ at h
    obtain ⟨answer, -⟩ := SqliteStore.exec_ok h
    simp only [SqliteStore.act] at answer
    split at answer
    · cases answer
    · rename_i c found
      cases answer
      exact found

theorem loadOrStore_idle (id : Id) :
    (exec env fails t (.loadOrStore id) w).2.db = w.db ∧
      (exec env fails t (.loadOrStore id) w).2.fs = w.fs := by
  simp only [exec, ServiceWorld.exec]
  split <;> exact ⟨rfl, rfl⟩

theorem tryLock_idle (lock : Nat) :
    (exec env fails t (.tryLock lock) w).2.db = w.db ∧
      (exec env fails t (.tryLock lock) w).2.fs = w.fs := by
  simp only [exec, ServiceWorld.exec]
  split <;> exact ⟨rfl, rfl⟩

end Locks

section Whole
variable {env : Environment} {fails : Nat → Option Failure} {t : Nat}
variable (id : Id) (deleteFiles : Bool) (actor clientIP : String) (w : World)

theorem delete_settled :
    Settled id w (run (exec env fails t) (delete id deleteFiles actor clientIP) w) := by
  unfold delete CertificateService.get
  rw [Prog.perform_bind, run_call]
  obtain ⟨disk₁, db₁, found⟩ := @certificate_read env fails t w id
  generalize exec env fails t (.store (.certificate id)) w = r at disk₁ db₁ found ⊢
  obtain ⟨answer, w₁⟩ := r
  dsimp only at disk₁ db₁ found
  have idle : ∀ {w' : World}, w'.db = w₁.db → w'.fs = w₁.fs → Unchanged w w' := by
    intro w' db fs
    rw [db₁] at db
    exact ⟨by rw [db]; rfl, by rw [db]; rfl, Or.inl (by rw [db]; rfl), fun _ => by rw [fs, disk₁]⟩
  cases answer with
  | error err => exact .nothing (idle rfl rfl)
  | ok value =>
    have named : value.id = id := Db.id_of_row (found value rfl)
    rw [← named]
    dsimp only
    rw [Prog.perform_bind, run_call]
    obtain ⟨db₂, disk₂⟩ := @loadOrStore_idle env fails t w₁ value.id
    generalize exec env fails t (.loadOrStore value.id) w₁ = r at db₂ disk₂ ⊢
    obtain ⟨lock, w₂⟩ := r
    dsimp only at db₂ disk₂
    rw [Prog.perform_bind, run_call]
    obtain ⟨db₃, disk₃⟩ := @tryLock_idle env fails t w₂ lock
    generalize exec env fails t (.tryLock lock) w₂ = r at db₃ disk₃ ⊢
    obtain ⟨got, w₃⟩ := r
    dsimp only at db₃ disk₃
    cases got with
    | false => exact .nothing (idle (db₃.trans db₂) (disk₃.trans disk₂))
    | true =>
      dsimp only
      rw [run_bind]
      have settled := @deleteLocked_settled env fails t value deleteFiles actor clientIP w₃
      have settled := settled.since (Or.inr ((db₃.trans db₂).trans db₁))
        fun name => by rw [disk₃, disk₂, disk₁]
      generalize run (exec env fails t) (deleteLocked value deleteFiles actor clientIP) w₃ = r
        at settled ⊢
      -- The lock is all that is left to give back.
      cases settled with
      | all gone => exact .all gone
      | nothing same => exact .nothing ⟨same.certificates, same.jobs, same.audits, same.directories⟩

theorem delete_guarded :
    Through (exec env fails t) (fun w' => ∀ row, w.db.row id = some row →
      Guarded w.fs row.outputDirectory w'.fs) (delete id deleteFiles actor clientIP) w := by
  have idle : ∀ {w' : World}, w'.fs = w.fs → ∀ row, w.db.row id = some row →
      Guarded w.fs row.outputDirectory w'.fs := by
    intro w' same row _
    exact guarded_same (by rw [same])
  unfold delete CertificateService.get
  rw [Prog.perform_bind]
  refine ⟨idle rfl, ?_⟩
  obtain ⟨disk₁, -, found⟩ := @certificate_read env fails t w id
  generalize exec env fails t (.store (.certificate id)) w = r at disk₁ found ⊢
  obtain ⟨answer, w₁⟩ := r
  dsimp only at disk₁ found
  cases answer with
  | error err => exact idle disk₁
  | ok value =>
    have there := found value rfl
    have named : value.id = id := Db.id_of_row there
    rw [← named] at there idle ⊢
    dsimp only
    rw [Prog.perform_bind]
    refine ⟨idle disk₁, ?_⟩
    obtain ⟨-, disk₂⟩ := @loadOrStore_idle env fails t w₁ value.id
    generalize exec env fails t (.loadOrStore value.id) w₁ = r at disk₂ ⊢
    obtain ⟨lock, w₂⟩ := r
    dsimp only at disk₂ ⊢
    rw [disk₁] at disk₂
    rw [Prog.perform_bind]
    refine ⟨idle disk₂, ?_⟩
    obtain ⟨-, disk₃⟩ := @tryLock_idle env fails t w₂ lock
    generalize exec env fails t (.tryLock lock) w₂ = r at disk₃ ⊢
    obtain ⟨got, w₃⟩ := r
    dsimp only at disk₃
    rw [disk₂] at disk₃
    cases got with
    | false => exact idle disk₃
    | true =>
      dsimp only
      have guarded : Through (exec env fails t) (fun w' => ∀ row, w.db.row value.id = some row →
          Guarded w.fs row.outputDirectory w'.fs) (deleteLocked value deleteFiles actor clientIP)
          w₃ := by
        refine (deleteLocked_guarded value deleteFiles actor clientIP w₃).mono _ fun w' safe row same => ?_
        rw [there] at same
        cases same
        rw [disk₃] at safe
        exact safe
      refine (through_bind _ _ _ _ _).mpr ⟨guarded, ?_⟩
      have final := guarded.final
      exact ⟨final, final⟩

end Whole

/-- Whatever call of the disk, of the store or of the transaction fails: the record
is gone and its history is there, or nothing has changed and an error is returned.
At no moment has the directory changed without a complete backup of it. -/
theorem delete_all_or_nothing (env : Environment) (fails : Nat → Option Failure) (t : Nat) (id : Id)
    (deleteFiles : Bool) (actor clientIP : String) (w : World) :
    Settled id w (run (exec env fails t) (delete id deleteFiles actor clientIP) w) ∧
      Through (exec env fails t) (fun w' => ∀ row, w.db.row id = some row →
        Guarded w.fs row.outputDirectory w'.fs) (delete id deleteFiles actor clientIP) w :=
  ⟨delete_settled id deleteFiles actor clientIP w, delete_guarded id deleteFiles actor clientIP w⟩

end Deletions
