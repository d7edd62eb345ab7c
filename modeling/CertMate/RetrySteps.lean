import CertMate.Bystanders
import CertMate.RetryProtocol

/-!
# What the attempts of a scan make of the world

The store and the credential lookups work. At every stage of the goroutine's
attempts the world is where the stage says, whatever happens to other
certificates meanwhile.
-/
namespace RetrySteps
open CertificateModel DomainValidation CallTrees ThreadPools ServiceWorld CertificateFiles
  CertificateService ServiceProtocol ServiceSteps ServicePool DeleteExclusion Bystanders
open SqliteStore hiding exec
open PublishProtocol (NewAt)
open RetryProtocol (Past Stage Equipped Expected Publishes Refuses Answers)

/-- The store and the lookups of credentials work, and nothing is cancelled. -/
structure Healthy (env : Environment) (value : Certificate) : Prop where
  store : ∀ n, env.backend.fails n = none
  credentials : value.challengeType = "dns-01" →
    ∀ n, ∃ values, env.credentials n value.dnsCredentialID = .ok values
  context : ∀ n, env.cancelled n = false

/-- What the `n`-th engine call for the certificate delivers, if anything. -/
def engineResult (env : Environment) (value : Certificate) (n : Nat) : Option Material :=
  match value.mode with
  | .selfSigned =>
    delivered (.renewSelfSigned value.id (selfSignedRequest value)) (env.selfSigned value.id n)
  | .acme =>
    delivered (.renewACME value.id (renewRequest value false noProcessValues)) (env.acme value.id n)
  | .other _ => none

/-- The record says what the material says, and the certificate is active. -/
structure Carries (material : Material) (row : Certificate) : Prop where
  status : row.status = .active
  issuer : row.issuer = material.metadata.issuer
  serialNumber : row.serialNumber = material.metadata.serialNumber
  notBefore : row.notBefore = some material.metadata.notBefore.instant
  notAfter : row.notAfter = some material.metadata.notAfter.instant
  fingerprint : row.fingerprintSHA256 = material.metadata.fingerprintSHA256

/-- The files of the material are in the directory of the certificate. -/
def Filed (value : Certificate) (material : Material) (w : World) : Prop :=
  ∃ document, NewAt value.outputDirectory
    (payload material document value.createRenewedMarker) w.fs

/-- The record is where it was. -/
def Stored (value : Certificate) (w : World) : Prop :=
  ∃ row, w.db.row value.id = some row ∧ row.outputDirectory = value.outputDirectory

section Relation
variable (s : Service) (env : Environment) (value : Certificate) (n : Nat)

/-- What the attempts so far have made of the world, for which the engine had
been called `n` times. -/
def Made (past : Past) (w : World) : Prop :=
  match past with
  | .untouched => w.db.row value.id = some value ∧ w.engineCalls value.id = n
  | .refused => w.db.row value.id = some value ∧ w.engineCalls value.id = n ∧
      renewAllowed value.status = false
  | .failed called => (∃ row, w.db.row value.id = some row ∧ row.status = .failed) ∧
      w.engineCalls value.id = (if called then n + 1 else n) ∧
      renewAllowed value.status = true ∧ (called = true ↔ Equipped s value) ∧
      (called = true → engineResult env value n = none)
  | .unpublished material time told =>
      (∃ row, w.db.row value.id = some row ∧ row.status = .failed) ∧
      w.engineCalls value.id = n + 1 ∧ engineResult env value n = some material ∧
      Refuses value material time told
  | .renewed material time told => (∃ row, w.db.row value.id = some row ∧
        row.outputDirectory = value.outputDirectory ∧ Carries material row) ∧
      w.engineCalls value.id = n + 1 ∧
      renewAllowed value.status = true ∧ Equipped s value ∧
      engineResult env value n = some material ∧ Publishes value material time told ∧
      safeDirectory value.outputDirectory = true ∧ Filed value material w

/-- An attempt is under way, with `calls` calls of the engine so far. -/
structure Underway (calls : Nat) (w : World) : Prop where
  row : ∃ row, w.db.row value.id = some row
  calls : w.engineCalls value.id = calls
  gate : renewAllowed value.status = true

def Free (w : World) : Prop :=
  ∀ lock, w.locks value.id = some lock → w.holder lock = none

def Locked (t lock : Nat) (w : World) : Prop :=
  w.locks value.id = some lock ∧ w.holder lock = some t

/-- Where the world is when the worker, thread `t`, is at a stage. -/
def Agrees (t : Nat) (stage : Stage) (w : World) : Prop :=
  match stage with
  | .idle past => Made s env value n past w ∧ Free value w
  | .read past v => Made s env value n past w ∧ Free value w ∧ w.db.row value.id = some v
  | .found past v lock => Made s env value n past w ∧ Free value w ∧
      w.db.row value.id = some v ∧ w.locks value.id = some lock
  | .held past v lock => Made s env value n past w ∧ w.db.row value.id = some v ∧
      Locked value t lock w
  | .marked lock => Underway value n w ∧ Locked value t lock w
  | .working lock => Underway value n w ∧ Locked value t lock w
  | .called lock got => Underway value (n + 1) w ∧ Locked value t lock w ∧ Equipped s value ∧
      engineResult env value n = got
  | .timed lock material time progress _ => Underway value (n + 1) w ∧ Locked value t lock w ∧
      Equipped s value ∧ engineResult env value n = some material ∧
      (progress ≠ .checking → safeDirectory value.outputDirectory = true ∧
        ∃ document, metadataDocument value material.metadata time = .ok document) ∧
      ∀ document, safeDirectory value.outputDirectory = true →
        metadataDocument value material.metadata time = .ok document →
        ∃ old since, PublishProtocol.Agrees env.host value.outputDirectory
          (payload material document value.createRenewedMarker) old since progress w.fs
  | .settled past lock => Made s env value n past w ∧ Locked value t lock w
  | .panicked | .done => True
  | .ruledOut => False

end Relation

section Frames
variable {s : Service} {env : Environment} {value : Certificate} {n : Nat}
  {w w' : World}
  (kept : Kept value.id value.outputDirectory w w')
include kept

theorem Filed.frame {material : Material} (safe : safeDirectory value.outputDirectory = true)
    (h : Filed value material w) : Filed value material w' := by
  obtain ⟨document, d, files, there, rest⟩ := h
  exact ⟨document, d, files, (kept.target safe).trans there, rest⟩

theorem Made.frame {past : Past} (h : Made s env value n past w) :
    Made s env value n past w' := by
  have row := kept.row
  have calls := kept.engineCalls
  cases past with
  | untouched => exact ⟨row.trans h.1, calls.trans h.2⟩
  | refused => exact ⟨row.trans h.1, calls.trans h.2.1, h.2.2⟩
  | failed called =>
    obtain ⟨⟨c, there, failed⟩, counted, rest⟩ := h
    exact ⟨⟨c, row.trans there, failed⟩, calls.trans counted, rest⟩
  | unpublished material time told =>
    obtain ⟨⟨c, there, failed⟩, counted, rest⟩ := h
    exact ⟨⟨c, row.trans there, failed⟩, calls.trans counted, rest⟩
  | renewed material time told =>
    obtain ⟨⟨c, there, carries⟩, counted, gate, equipped, result, published, safe, filed⟩ := h
    exact ⟨⟨c, row.trans there, carries⟩, calls.trans counted, gate, equipped, result, published,
      safe, filed.frame kept safe⟩

theorem Underway.frame {calls : Nat} (h : Underway value calls w) : Underway value calls w' := by
  obtain ⟨c, there⟩ := h.row
  exact ⟨⟨c, kept.row.trans there⟩, kept.engineCalls.trans h.calls, h.gate⟩

theorem Free.frame (h : Free value w) : Free value w' := by
  intro lock known
  rw [kept.lock] at known
  exact (kept.holder lock known).trans (h lock known)

theorem Locked.frame {t lock : Nat} (h : Locked value t lock w) : Locked value t lock w' :=
  ⟨kept.lock.trans h.1, (kept.holder lock h.1).trans h.2⟩

/-- Others do not disturb the worker. -/
theorem Agrees.frame {t : Nat} {stage : Stage} (h : Agrees s env value n t stage w) :
    Agrees s env value n t stage w' := by
  have row := kept.row
  cases stage with
  | idle past => exact ⟨h.1.frame kept, h.2.frame kept⟩
  | read past v => exact ⟨h.1.frame kept, h.2.1.frame kept, row.trans h.2.2⟩
  | found past v lock =>
    exact ⟨h.1.frame kept, h.2.1.frame kept, row.trans h.2.2.1, kept.lock.trans h.2.2.2⟩
  | held past v lock => exact ⟨h.1.frame kept, row.trans h.2.1, h.2.2.frame kept⟩
  | marked lock => exact ⟨h.1.frame kept, h.2.frame kept⟩
  | working lock => exact ⟨h.1.frame kept, h.2.frame kept⟩
  | called lock got => exact ⟨h.1.frame kept, h.2.1.frame kept, h.2.2⟩
  | timed lock material time progress told =>
    obtain ⟨underway, locked, equipped, result, begun, disk⟩ := h
    refine ⟨underway.frame kept, locked.frame kept, equipped, result, begun,
      fun document safe made => ?_⟩
    obtain ⟨old, since, agrees⟩ := disk document safe made
    exact ⟨old, since, agrees.frame (kept.target safe) (kept.hidden safe) kept.calls⟩
  | settled past lock => exact ⟨h.1.frame kept, h.2.frame kept⟩
  | panicked => trivial
  | done => trivial
  | ruledOut => exact h

end Frames

section Store
variable {B : SqliteStore.Backend} {db : SqliteStore.Db} {q : SqliteStore.Query} {i : Id}

theorem exec_update {u : SqliteStore.Update} {r : Except Error (Reply q)}
    (works : B.fails db.calls = none) (acts : act B q db = (r, db.update i u)) :
    (SqliteStore.exec B q db).1 = r ∧
      (SqliteStore.exec B q db).2.row i = (db.row i).map u.apply := by
  rw [exec_through works, acts]
  exact ⟨rfl, by rw [Db.row_tick, Db.row_update, if_pos rfl]⟩

/-- Statements that are not about certificates leave the rows alone. -/
theorem exec_unchanged (blind : ∀ now, q.change now = none)
    (inserts : ∀ v, q ≠ .createCertificate v)
    (deletes : ∀ i event, q ≠ .deleteCertificateWithAudit i event) :
    (SqliteStore.exec B q db).2.row i = db.row i := by
  cases exec_row B q db i with
  | same row => exact row
  | changed u change row =>
    rw [blind] at change
    cases change
  | created v query new row => exact absurd query (inserts v)
  | deleted event query present row => exact absurd query (deletes i event)

end Store

section Calls
variable {s : Service} {env : Environment} {value : Certificate} {n : Nat}
  {t : Nat} {w : World} {scan : Nat}

theorem kept_store {q : SqliteStore.Query}
    (same : (SqliteStore.exec env.backend q w.db).2.row value.id = w.db.row value.id) :
    Kept value.id value.outputDirectory w (exec env t (.store q) w).2 :=
  ⟨same, rfl, fun _ _ => rfl, rfl, rfl, fun _ => rfl, fun _ _ _ => rfl, Nat.le_refl _⟩

theorem Made.row {past : Past} (h : Made s env value n past w) :
    ∃ row, w.db.row value.id = some row := by
  cases past with
  | untouched => exact ⟨value, h.1⟩
  | refused => exact ⟨value, h.1⟩
  | failed called =>
    obtain ⟨⟨row, there, -⟩, -⟩ := h
    exact ⟨row, there⟩
  | unpublished material time told =>
    obtain ⟨⟨row, there, -⟩, -⟩ := h
    exact ⟨row, there⟩
  | renewed material time told =>
    obtain ⟨⟨row, there, -⟩, -⟩ := h
    exact ⟨row, there⟩

/-- The row is the one that the next attempt expects. -/
theorem Made.expected {past : Past} (h : Made s env value n past w) (open_ : past.Open)
    {row : Certificate} (there : w.db.row value.id = some row) : Expected value past row := by
  have refused : ∀ {row' : Certificate}, w.db.row value.id = some row' → row'.status = .failed →
      renewAllowed row.status = false := by
    intro row' there' failed
    cases there.symm.trans there'
    rw [failed]
    rfl
  cases past with
  | untouched => exact Option.some.inj (there.symm.trans h.1)
  | refused =>
    cases there.symm.trans h.1
    exact h.2.2
  | failed called =>
    obtain ⟨⟨row', there', failed⟩, -⟩ := h
    exact refused there' failed
  | unpublished material time told =>
    obtain ⟨⟨row', there', failed⟩, -⟩ := h
    exact refused there' failed
  | renewed material time told => exact absurd rfl (open_ material time told)

theorem read_answer (works : env.backend.fails w.db.calls = none) {row : Certificate}
    (there : w.db.row value.id = some row) :
    (exec env t (.store (.certificate value.id)) w).1 = .ok row := by
  change (SqliteStore.exec env.backend (.certificate value.id) w.db).1 = .ok row
  rw [exec_through works]
  simp only [act, there]

theorem read_step (works : env.backend.fails w.db.calls = none) {past : Past}
    (open_ : past.Open) (h : Agrees s env value n t (.idle past) w) :
    Agrees s env value n t
      (RetryProtocol.note value (.idle past) (.store (.certificate value.id))
        (exec env t (.store (.certificate value.id)) w).1)
      (exec env t (.store (.certificate value.id)) w).2 := by
  obtain ⟨made, free⟩ := h
  obtain ⟨row, there⟩ := made.row
  have kept : Kept value.id value.outputDirectory w
      (exec env t (.store (.certificate value.id)) w).2 :=
    kept_store (exec_unchanged (fun _ => rfl) (fun _ h => nomatch h) fun _ _ h => nomatch h)
  rw [read_answer works there]
  change Agrees s env value n t
    (if Expected value past row then .read past row else .ruledOut) _
  rw [if_pos (made.expected open_ there)]
  exact ⟨made.frame kept, free.frame kept, kept.row.trans there⟩

theorem mark_step (works : env.backend.fails w.db.calls = none) {lock : Nat}
    (gate : renewAllowed value.status = true)
    (h : Agrees s env value n t (.held .untouched value lock) w) :
    Agrees s env value n t
      (RetryProtocol.note value (.held .untouched value lock)
        (.store (.setCertificateStatus value.id .renewing))
        (exec env t (.store (.setCertificateStatus value.id .renewing)) w).1)
      (exec env t (.store (.setCertificateStatus value.id .renewing)) w).2 := by
  obtain ⟨⟨there, calls⟩, -, locked⟩ := h
  obtain ⟨answer, row⟩ := exec_update (q := .setCertificateStatus value.id .renewing) works rfl
  rw [show (exec env t (.store (.setCertificateStatus value.id .renewing)) w).1 = .ok ()
    from answer]
  rw [there] at row
  exact ⟨⟨⟨_, row⟩, calls, gate⟩, locked⟩

theorem job_step (works : env.backend.fails w.db.calls = none) {lock : Nat}
    {run : CertificateModel.Run}
    (about : run.certificateID = some value.id)
    (h : Agrees s env value n t (.marked lock) w) :
    Agrees s env value n t
      (RetryProtocol.note value (.marked lock) (.store (.createJob run))
        (exec env t (.store (.createJob run)) w).1)
      (exec env t (.store (.createJob run)) w).2 := by
  obtain ⟨underway, locked⟩ := h
  obtain ⟨row, there⟩ := underway.row
  have kept : Kept value.id value.outputDirectory w (exec env t (.store (.createJob run)) w).2 :=
    kept_store (exec_unchanged (fun _ => rfl) (fun _ h => nomatch h) fun _ _ h => nomatch h)
  have answer : ∃ job, (exec env t (.store (.createJob run)) w).1 = .ok job := by
    change ∃ job, (SqliteStore.exec env.backend (.createJob run) w.db).1 = .ok job
    rw [exec_through works]
    simp [act, about, referenced, there]
  obtain ⟨job, answer⟩ := answer
  rw [answer]
  exact ⟨underway.frame kept, locked.frame kept⟩

/-- The attempt has come to nothing: the certificate is left as failed. -/
theorem fail_step (works : env.backend.fails w.db.calls = none) {stage : Stage} {past : Past}
    {lock calls : Nat} (message : Bytes)
    (leads : RetryProtocol.noteQuery value stage (.markCertificateFailed value.id message) () =
      .settled past lock)
    (underway : Underway value calls w) (locked : Locked value t lock w)
    (made : ∀ w' : World, (∃ row, w'.db.row value.id = some row ∧ row.status = .failed) →
      w'.engineCalls value.id = calls → Made s env value n past w') :
    Agrees s env value n t
      (RetryProtocol.note value stage (.store (.markCertificateFailed value.id message))
        (exec env t (.store (.markCertificateFailed value.id message)) w).1)
      (exec env t (.store (.markCertificateFailed value.id message)) w).2 := by
  obtain ⟨row, there⟩ := underway.row
  obtain ⟨answer, after⟩ := exec_update (q := .markCertificateFailed value.id message) works rfl
  rw [show (exec env t (.store (.markCertificateFailed value.id message)) w).1 = .ok () from answer]
  change Agrees s env value n t
    (RetryProtocol.noteQuery value stage (.markCertificateFailed value.id message) ()) _
  rw [leads]
  rw [there] at after
  exact ⟨made _ ⟨_, after, rfl⟩ underway.calls, locked⟩

theorem record_step (works : env.backend.fails w.db.calls = none) {lock : Nat} {material : Material}
    {time : Time} {told : Answers} (published : Publishes value material time told)
    (stored : Stored value w)
    (h : Agrees s env value n t (.timed lock material time .released told) w) :
    Agrees s env value n t
      (RetryProtocol.note value (.timed lock material time .released told)
        (.store (.markCertificateRenewed (withMaterial value material)))
        (exec env t (.store (.markCertificateRenewed (withMaterial value material))) w).1)
      (exec env t (.store (.markCertificateRenewed (withMaterial value material))) w).2 := by
  obtain ⟨underway, locked, equipped, result, begun, disk⟩ := h
  obtain ⟨safe, document, made⟩ := begun fun h => nomatch h
  obtain ⟨row, there, directory⟩ := stored
  obtain ⟨old, since, -, filed⟩ := disk document safe made
  obtain ⟨answer, after⟩ := exec_update (i := value.id)
    (q := .markCertificateRenewed (withMaterial value material)) works rfl
  rw [show (exec env t (.store (.markCertificateRenewed (withMaterial value material))) w).1 =
    .ok () from answer]
  rw [there] at after
  exact ⟨⟨⟨_, after, directory, rfl, rfl, rfl, rfl, rfl, rfl⟩, underway.calls, underway.gate,
    equipped, result, published, safe, document, filed⟩, locked⟩

/-- What the attempts have made does not depend on the locks. -/
theorem Made.congr {past : Past} {w' : World} (h : Made s env value n past w)
    (row : w'.db.row value.id = w.db.row value.id)
    (calls : w'.engineCalls value.id = w.engineCalls value.id) (fs : w'.fs = w.fs) :
    Made s env value n past w' := by
  cases past with
  | untouched => exact ⟨row.trans h.1, calls.trans h.2⟩
  | refused => exact ⟨row.trans h.1, calls.trans h.2.1, h.2.2⟩
  | failed called =>
    obtain ⟨⟨c, there, failed⟩, counted, rest⟩ := h
    exact ⟨⟨c, row.trans there, failed⟩, calls.trans counted, rest⟩
  | unpublished material time told =>
    obtain ⟨⟨c, there, failed⟩, counted, rest⟩ := h
    exact ⟨⟨c, row.trans there, failed⟩, calls.trans counted, rest⟩
  | renewed material time told =>
    obtain ⟨⟨c, there, carries⟩, counted, gate, equipped, result, published, safe, filed⟩ := h
    refine ⟨⟨c, row.trans there, carries⟩, calls.trans counted, gate, equipped, result, published,
      safe, ?_⟩
    unfold Filed
    rw [fs]
    exact filed

theorem locate_step (unissued : ∀ lock, w.nextLock ≤ lock → w.holder lock = none) {past : Past}
    {v : Certificate} (h : Agrees s env value n t (.read past v) w) :
    Agrees s env value n t
      (RetryProtocol.note value (.read past v) (.loadOrStore value.id)
        (exec env t (.loadOrStore value.id) w).1) (exec env t (.loadOrStore value.id) w).2 := by
  obtain ⟨made, free, there⟩ := h
  cases known : w.locks value.id with
  | some lock =>
    have state : exec env t (.loadOrStore value.id) w = (lock, w) := by simp only [exec, known]
    rw [state]
    exact ⟨made, free, there, known⟩
  | none =>
    have state : exec env t (.loadOrStore value.id) w = (w.nextLock, { w with
        locks := Function.update w.locks value.id (some w.nextLock)
        nextLock := w.nextLock + 1 }) := by simp only [exec, known]
    rw [state]
    refine ⟨made.congr rfl rfl rfl, ?_, there, Function.update_self _ _ _⟩
    intro lock found
    cases (Function.update_self value.id (some w.nextLock) w.locks).symm.trans found
    exact unissued _ (Nat.le_refl _)

theorem take_step {past : Past} {v : Certificate} {lock : Nat}
    (h : Agrees s env value n t (.found past v lock) w) :
    Agrees s env value n t
      (RetryProtocol.note value (.found past v lock) (.tryLock lock)
        (exec env t (.tryLock lock) w).1) (exec env t (.tryLock lock) w).2 := by
  obtain ⟨made, free, there, known⟩ := h
  have state : exec env t (.tryLock lock) w =
      (true, { w with holder := Function.update w.holder lock (some t) }) := by
    simp only [exec, free lock known]
  rw [state]
  exact ⟨made.congr rfl rfl rfl, there, known, Function.update_self _ _ _⟩

theorem Made.left {past : Past} {v : Certificate} (h : Made s env value n past w)
    (there : w.db.row value.id = some v) (gate : renewAllowed v.status = false) :
    Made s env value n past.left w := by
  cases past with
  | untouched =>
    cases there.symm.trans h.1
    exact ⟨h.1, h.2, gate⟩
  | _ => exact h

theorem unlock_free {lock : Nat} (locked : Locked value t lock w) :
    Free value (exec env t (.unlock lock) w).2 := by
  intro other known
  cases known.symm.trans locked.1
  exact Function.update_self _ _ _

theorem unlock_step {stage : Stage} {lock : Nat}
    (permitted : RetryProtocol.permits s value scan stage (.unlock lock))
    (h : Agrees s env value n t stage w) :
    Agrees s env value n t
      (RetryProtocol.note value stage (.unlock lock) (exec env t (.unlock lock) w).1)
      (exec env t (.unlock lock) w).2 := by
  rcases permitted with ⟨past, v, rfl, gate⟩ | ⟨past, rfl⟩ | rfl
  · obtain ⟨made, there, locked⟩ := h
    exact ⟨(made.left there gate).congr rfl rfl rfl, unlock_free locked⟩
  · obtain ⟨made, locked⟩ := h
    exact ⟨made.congr rfl rfl rfl, unlock_free locked⟩
  · trivial

/-- One more call of the engine, and its result. -/
theorem engine_step {e : Eff} {lock : Nat} {got : Option Material}
    (counted : (exec env t e w).2 = countEngineCall w value.id)
    (noted : RetryProtocol.note value (.working lock) e (exec env t e w).1 = .called lock got)
    (equipped : Equipped s value)
    (result : engineResult env value (w.engineCalls value.id) = got)
    (h : Agrees s env value n t (.working lock) w) :
    Agrees s env value n t
      (RetryProtocol.note value (.working lock) e (exec env t e w).1) (exec env t e w).2 := by
  obtain ⟨underway, locked⟩ := h
  rw [noted, counted]
  rw [underway.calls] at result
  refine ⟨⟨underway.row, ?_, underway.gate⟩, locked, equipped, result⟩
  change bump w.engineCalls value.id value.id = n + 1
  rw [bump_self, underway.calls]

theorem file_step {lock : Nat} {material : Material} {time : Time}
    {progress : PublishProtocol.Progress} {told : Answers} {e : FileSystem.Call}
    (safe : safeDirectory value.outputDirectory = true)
    {document : FileSystem.Document}
    (made : metadataDocument value material.metadata time = .ok document)
    (ok : PublishProtocol.allows value.outputDirectory
      (payload material document value.createRenewedMarker) progress e)
    (h : Agrees s env value n t (.timed lock material time progress told) w) :
    Agrees s env value n t
      (RetryProtocol.note value (.timed lock material time progress told) (.file value.id e)
        (exec env t (.file value.id e) w).1) (exec env t (.file value.id e) w).2 := by
  obtain ⟨underway, locked, equipped, result, -, disk⟩ := h
  have db : (exec env t (.file value.id e) w).2.db = w.db := exec_db fun _ h => nomatch h
  have calls : (exec env t (.file value.id e) w).2.engineCalls value.id = w.engineCalls value.id :=
    exec_engineCalls fun h => nomatch h
  have holder : (exec env t (.file value.id e) w).2.holder = w.holder :=
    exec_holder fun _ => ⟨(fun h => nomatch h), fun h => nomatch h⟩
  refine ⟨⟨?_, ?_, underway.gate⟩, ⟨?_, ?_⟩, equipped, result,
    fun _ => ⟨safe, document, made⟩, ?_⟩
  · rw [db]
    exact underway.row
  · exact calls.trans underway.calls
  · exact exec_locks (fun h => nomatch h) locked.1
  · rw [holder]
    exact locked.2
  · intro document' safe' made'
    cases made.symm.trans made'
    obtain ⟨old, since, agrees⟩ := disk document safe made
    rw [exec_file_fs]
    exact ⟨old, since, PublishProtocol.agrees_call safe ok agrees⟩

theorem clock_step {lock : Nat} {material : Material}
    (h : Agrees s env value n t (.called lock (some material)) w) :
    Agrees s env value n t
      (RetryProtocol.note value (.called lock (some material)) .now (exec env t .now w).1)
      (exec env t .now w).2 := by
  obtain ⟨underway, locked, equipped, result⟩ := h
  refine ⟨⟨underway.row, underway.calls, underway.gate⟩, locked, equipped, result, ?_, ?_⟩
  · exact fun begun => absurd rfl begun
  · exact fun document _ _ => ⟨_, w.fs.calls, Nat.le_refl _, rfl⟩

/-- A call that tells nothing and changes nothing of the certificate. -/
theorem quiet_step {stage : Stage} {e : Eff}
    (noted : RetryProtocol.note value stage e (exec env t e w).1 = stage)
    (kept : Kept value.id value.outputDirectory w (exec env t e w).2)
    (h : Agrees s env value n t stage w) :
    Agrees s env value n t
      (RetryProtocol.note value stage e (exec env t e w).1) (exec env t e w).2 := by
  rw [noted]
  exact h.frame kept

/-- A statement that goes through and is not about certificates. -/
theorem statement_step {stage : Stage} {q : SqliteStore.Query} {r : Reply q}
    (answer : (exec env t (.store q) w).1 = .ok r)
    (noted : RetryProtocol.noteQuery value stage q r = stage)
    (blind : ∀ now, q.change now = none) (inserts : ∀ v, q ≠ .createCertificate v)
    (deletes : ∀ i event, q ≠ .deleteCertificateWithAudit i event)
    (h : Agrees s env value n t stage w) :
    Agrees s env value n t
      (RetryProtocol.note value stage (.store q) (exec env t (.store q) w).1)
      (exec env t (.store q) w).2 := by
  refine quiet_step ?_ (kept_store (exec_unchanged blind inserts deletes)) h
  rw [answer]
  exact noted

theorem store_step (works : env.backend.fails w.db.calls = none) (stored : Stored value w)
    {stage : Stage} {q : SqliteStore.Query}
    (permitted : RetryProtocol.permitsQuery s value stage q)
    (h : Agrees s env value n t stage w) :
    Agrees s env value n t
      (RetryProtocol.note value stage (.store q) (exec env t (.store q) w).1)
      (exec env t (.store q) w).2 := by
  cases q with
  | certificate i =>
    obtain ⟨rfl, ⟨past, rfl, open_⟩ | ⟨past, lock, rfl⟩⟩ := permitted
    · exact read_step works open_ h
    · obtain ⟨row, there, -⟩ := stored
      exact statement_step (read_answer works there) rfl (fun _ => rfl) (fun _ h => by cases h)
        (fun _ _ h => by cases h) h
  | setCertificateStatus i status =>
    obtain ⟨rfl, rfl, gate, lock, rfl⟩ := permitted
    exact mark_step works gate h
  | createJob run =>
    obtain ⟨about, lock, rfl⟩ := permitted
    exact job_step works about h
  | markCertificateFailed i message =>
    obtain ⟨rfl, lock, ⟨rfl, lacking⟩ | rfl |
      ⟨material, time, progress, told, rfl, refuses⟩⟩ := permitted
    · obtain ⟨underway, locked⟩ := h
      refine fail_step works message rfl underway locked fun w' failed calls => ?_
      exact ⟨failed, calls, underway.gate,
        ⟨(fun h => by cases h), fun equipped => absurd equipped lacking⟩, fun h => by cases h⟩
    · obtain ⟨underway, locked, equipped, result⟩ := h
      refine fail_step works message rfl underway locked fun w' failed calls => ?_
      exact ⟨failed, calls, underway.gate, ⟨fun _ => equipped, fun _ => rfl⟩, fun _ => result⟩
    · obtain ⟨underway, locked, equipped, result, -⟩ := h
      refine fail_step works message rfl underway locked fun w' failed calls => ?_
      exact ⟨failed, calls, result, refuses⟩
  | markCertificateRenewed c =>
    obtain ⟨lock, material, time, told, rfl, published, rfl⟩ := permitted
    exact record_step works published stored h
  | createAuditEvent event =>
    obtain ⟨about, past, lock, rfl⟩ := permitted
    obtain ⟨row, there, -⟩ := stored
    have answer : (exec env t (.store (.createAuditEvent event)) w).1 = .ok () := by
      change (SqliteStore.exec env.backend (.createAuditEvent event) w.db).1 = .ok ()
      rw [exec_through works]
      simp [act, about, referenced, there]
    exact statement_step answer rfl (fun _ => rfl) (fun _ h => by cases h)
      (fun _ _ h => by cases h) h
  | finishJob i status code output message =>
    have answer : (exec env t (.store (.finishJob i status code output message)) w).1 = .ok () := by
      change (SqliteStore.exec env.backend (.finishJob i status code output message) w.db).1 =
        .ok ()
      rw [exec_through works]
      rfl
    have noted : RetryProtocol.noteQuery value stage (.finishJob i status code output message) () =
        stage := by
      cases stage <;> rfl
    exact statement_step answer noted (fun _ => rfl) (fun _ h => by cases h)
      (fun _ _ h => by cases h) h
  | _ => exact permitted.elim

/-- Whatever the worker does, the world is where the next stage says. -/
theorem own_step (healthy : Healthy env value) (stored : Stored value w)
    (unissued : ∀ lock, w.nextLock ≤ lock → w.holder lock = none) {stage : Stage} {e : Eff}
    (permitted : RetryProtocol.permits s value scan stage e)
    (h : Agrees s env value n t stage w) :
    Agrees s env value n t
      (RetryProtocol.note value stage e (exec env t e w).1) (exec env t e w).2 := by
  have apart : ∀ {w' : World}, w'.db = w.db → w'.locks = w.locks → w'.holder = w.holder →
      w'.engineCalls = w.engineCalls → w'.publications = w.publications → w'.fs = w.fs →
      Kept value.id value.outputDirectory w w' := by
    intro w' db locks holder calls published fs
    refine ⟨by rw [db], by rw [locks], fun _ _ => by rw [holder], by rw [calls], ?_,
      fun _ => by rw [fs], fun _ _ _ => by rw [fs], by rw [fs]⟩
    rw [publicationsOf, published]
    rfl
  cases e with
  | store q => exact store_step (healthy.store _) stored permitted h
  | file i e =>
    obtain ⟨rfl, safe, lock, material, time, progress, told, document, rfl, made, ok⟩ := permitted
    exact file_step safe made ok h
  | loadOrStore i =>
    obtain ⟨rfl, past, v, rfl⟩ := permitted
    exact locate_step unissued h
  | tryLock lock =>
    obtain ⟨past, v, rfl⟩ := permitted
    exact take_step h
  | unlock lock => exact unlock_step permitted h
  | now =>
    obtain ⟨lock, material, rfl⟩ := permitted
    exact clock_step h
  | resolve credential =>
    obtain ⟨rfl, dns, lock, rfl⟩ := permitted
    obtain ⟨values, found⟩ := healthy.credentials dns w.ticks
    have answer : (exec env t (.resolve value.dnsCredentialID) w).1 = .ok values := found
    refine quiet_step ?_ (apart rfl rfl rfl rfl rfl rfl) h
    rw [answer]
    rfl
  | renewSelfSigned i request =>
    obtain ⟨rfl, mode, equipped, lock, rfl⟩ := permitted
    refine engine_step rfl rfl equipped ?_ h
    simp only [engineResult, mode, exec]
    rcases env.selfSigned value.id (w.engineCalls value.id) with _ | _ | _ <;> rfl
  | renewACME i request =>
    obtain ⟨rfl, mode, equipped, lock, rfl⟩ := permitted
    refine engine_step rfl rfl equipped ?_ h
    simp only [engineResult, mode, exec]
    rcases env.acme value.id (w.engineCalls value.id) with _ | _ | _ <;> rfl
  | acquireSlot m =>
    obtain ⟨past, rfl⟩ := permitted
    have state : exec env t (.acquireSlot m) w = (true, w.tick.setScan m { w.scans m with
        used := (w.scans m).used + 1 }) := by
      simp [exec, healthy.context w.ticks]
    refine quiet_step ?_ ?_ h
    · rw [state]
      rfl
    · rw [state]
      exact apart rfl rfl rfl rfl rfl rfl
  | pause seconds =>
    obtain ⟨past, rfl⟩ := permitted
    have answer : (exec env t (.pause seconds) w).1 = true := by
      simp [exec, healthy.context w.ticks]
    refine quiet_step ?_ (apart rfl rfl rfl rfl rfl rfl) h
    rw [answer]
    rfl
  | releaseSlot m => exact quiet_step rfl (apart rfl rfl rfl rfl rfl rfl) h
  | reportError m err => exact quiet_step rfl (apart rfl rfl rfl rfl rfl rfl) h
  | workerDone m i =>
    obtain ⟨-, -, past, rfl, -⟩ := permitted
    trivial
  | _ => exact permitted.elim

end Calls

end RetrySteps
