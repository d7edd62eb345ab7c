import CertMate.AuditedJobs

/-!
# What an operation leaves to be seen

What is seen of a certificate, its job and its files, times and the type of the
job aside, and what the parts of a creation and of an issue make of it with a
store that does not fail.
-/
namespace OperationViews
open CertificateModel CallTrees ServiceWorld CertificateService Bookkeeping
open SqliteStore hiding exec
open CertificateFiles (Files publish)
open DomainValidation (trimSpace normalizeDomains validateACMEDomains)
open AuditedJobs (Healthy exec_healthy)

/-- The record, times aside. -/
def timeless (c : Certificate) : Certificate :=
  { c with
    createdAt := 0
    updatedAt := 0
    lastIssuedAt := c.lastIssuedAt.map fun _ => 0
    lastRenewedAt := c.lastRenewedAt.map fun _ => 0 }

/-- The job, times and its type aside. -/
def typeless (r : Run) : Run :=
  { r with jobType := .issue, startedAt := 0, finishedAt := r.finishedAt.map fun _ => 0 }

/-- What is seen of a certificate and its job, and what the next readings and
engine calls depend on. -/
structure View where
  row : Option Certificate
  job : Option Run
  fs : FileSystem.Fs
  engineCalls : Nat
  ticks : Nat

def view (id j : Id) (w : World) : View where
  row := (w.db.row id).map timeless
  job := (w.db.job j).map typeless
  fs := w.fs
  engineCalls := w.engineCalls id
  ticks := w.ticks

namespace View

def ended (v : View) (status : JobStatus) (exit : Int) (output message : Bytes) : View :=
  { v with job := v.job.map (finishRun (fun _ => 0) status exit output message) }

def failed (v : View) (message : Bytes) : View :=
  { v with row := v.row.map fun c => { c with status := .failed, lastError := message } }

def set (v : View) (status : Status) : View :=
  { v with row := v.row.map fun c => { c with status := status } }

/-- The new material is recorded. -/
def issued (v : View) (m : Metadata) : View :=
  { v with row := v.row.map fun c => { c with
      status := .active
      issuer := m.issuer
      serialNumber := m.serialNumber
      notBefore := some m.notBefore.instant
      notAfter := some m.notAfter.instant
      fingerprintSHA256 := m.fingerprintSHA256
      lastIssuedAt := some 0
      lastError := [] } }

def engine (v : View) : View := { v with engineCalls := v.engineCalls + 1 }

def tick (v : View) : View := { v with ticks := v.ticks + 1 }

end View

section Calls
variable {env : Environment} {t : Nat} {id j : Id} {w : World}

/-- The state after a call of the store. -/
abbrev after (env : Environment) (t : Nat) (q : Query) (w : World) : World :=
  (exec env t (.store q) w).2

variable (healthy : Healthy env.backend)
include healthy

theorem finishJob_view (status : JobStatus) (exit : Int) (output message : Bytes) :
    view id j (after env t (.finishJob j status exit output message) w) =
      (view id j w).ended status exit output message := by
  simp only [after, exec, execStore, exec_healthy healthy, act, view, View.ended]
  congr 1
  refine (congrArg (Option.map typeless) (Db.job_updateJob w.db j j (finishRun _ status exit output
    message) fun _ => rfl)).trans ?_
  rw [if_pos rfl, Option.map_map, Option.map_map]
  rfl

theorem update_view {q : Query} {u : Update} (f : Certificate → Certificate)
    (moved : (act env.backend q w.db).2 = w.db.update id u)
    (same : ∀ c, timeless (u.apply c) = f (timeless c)) :
    view id j (after env t q w) = { view id j w with row := (view id j w).row.map f } := by
  simp only [after, exec, execStore, exec_healthy healthy, moved, view, Db.row_tick, Db.job_tick,
    Db.job_update, Db.row_update, if_true, Option.map_map]
  congr 1
  apply Option.map_congr
  intro c _
  exact same c

theorem markFailed_view (message : Bytes) :
    view id j (after env t (.markCertificateFailed id message) w) =
      (view id j w).failed message :=
  update_view healthy _ rfl fun _ => rfl

theorem setStatus_view (status : Status) :
    view id j (after env t (.setCertificateStatus id status) w) = (view id j w).set status :=
  update_view healthy _ rfl fun _ => rfl

theorem markIssued_view {value : Certificate} (named : value.id = id) (material : Material) :
    view id j (after env t (.markCertificateIssued (withMaterial value material)) w) =
      (view id j w).issued material.metadata := by
  subst named
  exact update_view healthy _ rfl fun _ => rfl

/-- The job is the one that the next number is given to. -/
theorem createJob_view {run : Run} (known : referenced w.db run.certificateID = true) :
    (exec env t (.store (.createJob run)) w).1 =
        .ok (newRun (env.backend.clock w.db.calls) run w.db.jobs.next) ∧
      view id w.db.jobs.next (after env t (.createJob run) w) =
        { view id w.db.jobs.next w with
          job := some (typeless (newRun (env.backend.clock w.db.calls) run w.db.jobs.next)) } := by
  have stored : SqliteStore.exec env.backend (.createJob run) w.db =
      (.ok (newRun (env.backend.clock w.db.calls) run w.db.jobs.next),
        (w.db.insertJob (newRun (env.backend.clock w.db.calls) run w.db.jobs.next)).tick) := by
    rw [exec_healthy healthy]
    simp only [act, if_pos known]
  simp only [after, exec, execStore, stored, view, Db.job_tick, Db.row_tick, Db.row_insertJob,
    Db.job_insertJob, if_true]
  exact ⟨trivial, rfl⟩

omit healthy

theorem audit_view (event : Event) :
    view id j (after env t (.createAuditEvent event) w) = view id j w := by
  simp only [after, exec, execStore, SqliteStore.exec]
  split
  · rfl
  · simp only [act]
    split <;> rfl

theorem certificate_view (key : Id) :
    view id j (after env t (.certificate key) w) = view id j w := by
  simp only [after, exec, execStore, SqliteStore.exec]
  split
  · rfl
  · simp only [act]
    split <;> rfl

theorem file_view (certificate : Id) (e : FileSystem.Call) :
    view id j (exec env t (.file certificate e) w).2 =
      { view id j w with fs := (FileSystem.exec env.host e w.fs).2 } := by
  have moved : (exec env t (.file certificate e) w).2.fs = (FileSystem.exec env.host e w.fs).2 :=
    ServiceSteps.exec_file_fs certificate e
  have kept : (exec env t (.file certificate e) w).2.db = w.db ∧
      (exec env t (.file certificate e) w).2.engineCalls = w.engineCalls ∧
      (exec env t (.file certificate e) w).2.ticks = w.ticks := by
    simp only [exec, execFile]
    split
    · split <;> exact ⟨rfl, rfl, rfl⟩
    · exact ⟨rfl, rfl, rfl⟩
  unfold view
  rw [moved, kept.1, kept.2.1, kept.2.2]

/-- A publication depends on the disk only. -/
theorem publisher_view {α : Type} (certificate : Id) (p : Files α) (w : World) :
    (run (exec env t) (publisher certificate p) w).1 =
        (run (FileSystem.exec env.host) p w.fs).1 ∧
      view id j (run (exec env t) (publisher certificate p) w).2 =
        { view id j w with fs := (run (FileSystem.exec env.host) p w.fs).2 } := by
  induction p generalizing w with
  | ret a => exact ⟨rfl, rfl⟩
  | call e k ih =>
    have disk : (exec env t (.file certificate e) w).2.fs =
        (FileSystem.exec env.host e w.fs).2 := ServiceSteps.exec_file_fs certificate e
    obtain ⟨answer, seen⟩ := ih (FileSystem.exec env.host e w.fs).1
      (exec env t (.file certificate e) w).2
    rw [disk] at answer seen
    rw [file_view] at seen
    exact ⟨answer, seen⟩

end Calls

/-- The failure is recorded for the job and for the certificate. -/
def View.refused (v : View) (exit : Int) (output : Bytes) (err : Error) : View :=
  (v.ended .failed exit output (safeError err)).failed (safeError err)

/-- The material is published, and what comes of it recorded. -/
def View.published (env : Environment) (directory : String) (p : CertificateFiles.Payload)
    (material : Material) (v : View) : View :=
  match run (FileSystem.exec env.host) (publish directory p) v.fs with
  | (.error err, fs) => { v with fs := fs }.refused material.exit material.output err
  | (.ok _, fs) =>
    ({ v with fs := fs }.issued material.metadata).ended .succeeded material.exit material.output []

/-- What the outcome of the engine leaves. -/
def View.recorded (env : Environment) (value : Certificate) (v : View) : Obtained → View
  | .panicked => v
  | .failed exit err => v.refused exit [] err
  | .material material =>
    match metadataDocument value material.metadata (env.clock v.ticks) with
    | .error err => v.tick.refused material.exit material.output err
    | .ok document => v.tick.published env value.outputDirectory
        (payload material document value.createRenewedMarker) material

/-- From the publication on, with what is done when it fails. -/
def conclude (value : Certificate) (material : Material) (job : Id) (p : CertificateFiles.Payload)
    (refuse : Error → Operation (Outcome Certificate)) (event : Event) :
    Operation (Outcome Certificate) := do
  match ← publisher value.id (publish value.outputDirectory p) with
  | .error err => refuse err
  | .ok _ =>
    match ← store (.markCertificateIssued (withMaterial value material)) with
    | .error err => return .error err
    | .ok () =>
      let _ ← store (.finishJob job .succeeded material.exit material.output [])
      let _ ← store (.createAuditEvent event)
      return answer (← get value.id)

/-- What a creation makes of the outcome of its engine. -/
def deliver (value : Certificate) (job : Id) (event : Event) (actor clientIP : String) :
    Obtained → Operation (Outcome Certificate)
  | .panicked => return .panicked
  | .failed exit err => failRenewal value job exit [] err "certificate.create" actor clientIP
  | .material material => do
    let now ← clock
    match metadataDocument value material.metadata now with
    | .error err => return .error err
    | .ok document =>
      conclude value material job (payload material document value.createRenewedMarker)
        (fun err => do
          let _ ← store (.finishJob job .failed material.exit material.output (safeError err))
          let _ ← store (.markCertificateFailed value.id (safeError err))
          return .error err) event

/-- A creation by its parts. -/
theorem issueCreated_eq (value : Certificate) (jobType : JobType)
    (engine : Certificate → Operation Obtained) (detail : List (String × Detail))
    (actor clientIP : String) :
    issueCreated value jobType engine detail actor clientIP = (do
      match ← store (.createCertificate value) with
      | .error err => return .error err
      | .ok value =>
        match ← store (.createJob (runningJob value.id jobType)) with
        | .error err =>
          let _ ← store (.markCertificateFailed value.id (utf8 "无法创建任务记录"))
          return .error err
        | .ok job =>
          let obtained ← engine value
          deliver value job.id (auditEvent value.id "certificate.create" actor clientIP "succeeded"
            detail) actor clientIP obtained) := by
  refine congrArg (Prog.call _) (funext fun stored => ?_)
  cases stored with
  | error err => rfl
  | ok value =>
    refine congrArg (Prog.call _) (funext fun created => ?_)
    cases created with
    | error err => rfl
    | ok job =>
      refine bind_congr fun obtained => ?_
      cases obtained with
      | panicked => rfl
      | failed exit err => rfl
      | material material =>
        refine bind_congr fun now => ?_
        cases metadataDocument value material.metadata now with
        | error err => rfl
        | ok document =>
          refine bind_congr fun published => ?_
          cases published with
          | error err => rfl
          | ok _ =>
            refine bind_congr fun marked => ?_
            cases marked <;> rfl

theorem publishAndRecord_eq (value : Certificate) (material : Material) (job : Id)
    (eventType actor clientIP : String) :
    publishAndRecord value material job (fun c => store (.markCertificateIssued c)) eventType actor
        clientIP = (do
      let now ← clock
      match metadataDocument value material.metadata now with
      | .error err =>
        failRenewal value job material.exit material.output err eventType actor clientIP
      | .ok document =>
        conclude value material job (payload material document value.createRenewedMarker)
          (fun err => failRenewal value job material.exit material.output err eventType actor clientIP)
          (auditEvent value.id eventType actor clientIP "succeeded" [("mode", .mode value.mode)])) := by
  refine bind_congr fun now => ?_
  cases metadataDocument value material.metadata now with
  | error err => rfl
  | ok document =>
    refine bind_congr fun published => ?_
    cases published with
    | error err => rfl
    | ok _ =>
      refine bind_congr fun marked => ?_
      cases marked <;> rfl

section Tails
variable {env : Environment} {t : Nat} {value : Certificate} {j : Id} {w : World}
variable (healthy : Healthy env.backend)
include healthy

theorem failRenewal_view (exit : Int) (output : Bytes) (err : Error)
    (eventType actor clientIP : String) :
    (run (exec env t) (failRenewal value j exit output err eventType actor clientIP) w).1 =
        .error err ∧
      view value.id j (run (exec env t) (failRenewal value j exit output err eventType actor
        clientIP) w).2 = (view value.id j w).refused exit output err := by
  refine ⟨rfl, ?_⟩
  change view value.id j (after env t (.createAuditEvent _)
    (after env t (.markCertificateFailed value.id _)
      (after env t (.finishJob j .failed exit output _) w))) = _
  rw [audit_view, markFailed_view healthy, finishJob_view healthy]
  rfl

/-- A creation does not audit the failure of its publication. -/
theorem silent_view (exit : Int) (output : Bytes) (err : Error) {α : Type} (result : α) :
    view value.id j (run (exec env t) (do
        let _ ← store (.finishJob j .failed exit output (safeError err))
        let _ ← store (.markCertificateFailed value.id (safeError err))
        return result) w).2 = (view value.id j w).refused exit output err := by
  change view value.id j (after env t (.markCertificateFailed value.id _)
    (after env t (.finishJob j .failed exit output _) w)) = _
  rw [markFailed_view healthy, finishJob_view healthy]
  rfl

/-- The end of an operation that has gone well. -/
theorem succeed_view (material : Material) (event : Event) :
    view value.id j (run (exec env t) (do
        let _ ← store (.finishJob j .succeeded material.exit material.output [])
        let _ ← store (.createAuditEvent event)
        return answer (← get value.id))
      (after env t (.markCertificateIssued (withMaterial value material)) w)).2 =
      ((view value.id j w).issued material.metadata).ended .succeeded material.exit
        material.output [] := by
  change view value.id j (after env t (.certificate value.id)
    (after env t (.createAuditEvent event)
      (after env t (.finishJob j .succeeded material.exit material.output [])
        (after env t (.markCertificateIssued (withMaterial value material)) w)))) = _
  rw [certificate_view, audit_view, finishJob_view healthy, markIssued_view healthy rfl]

theorem markIssued_answer (c : Certificate) :
    (exec env t (.store (.markCertificateIssued c)) w).1 = .ok () := by
  simp only [exec, execStore, exec_healthy healthy, act]

theorem concluded_view {material : Material} {p : CertificateFiles.Payload}
    {refuse : Error → Operation (Outcome Certificate)} {event : Event}
    (refused : ∀ err u, (run (exec env t) (refuse err) u).1 = .error err ∧
      view value.id j (run (exec env t) (refuse err) u).2 =
        (view value.id j u).refused material.exit material.output err) :
    (run (exec env t) (conclude value material j p refuse event) w).1 ≠ .panicked ∧
      view value.id j (run (exec env t) (conclude value material j p refuse event) w).2 =
        (view value.id j w).published env value.outputDirectory p material := by
  have seen : (run (exec env t) (publisher value.id (publish value.outputDirectory p)) w).1 =
        (run (FileSystem.exec env.host) (publish value.outputDirectory p) w.fs).1 ∧
      view value.id j (run (exec env t) (publisher value.id
        (publish value.outputDirectory p)) w).2 = { view value.id j w with
          fs := (run (FileSystem.exec env.host) (publish value.outputDirectory p) w.fs).2 } :=
    publisher_view value.id _ w
  have disk : (view value.id j w).fs = w.fs := rfl
  rw [conclude, run_bind, View.published, disk]
  generalize run (exec env t) (publisher value.id (publish value.outputDirectory p)) w = r at seen ⊢
  generalize run (FileSystem.exec env.host) (publish value.outputDirectory p) w.fs = f at seen ⊢
  obtain ⟨a, u⟩ := r
  obtain ⟨a', fs⟩ := f
  obtain ⟨rfl, moved⟩ := seen
  cases a with
  | error err =>
    obtain ⟨outcome, recorded⟩ := refused err u
    refine ⟨?_, ?_⟩
    · rw [outcome]
      exact (fun h => nomatch h)
    · rw [recorded, moved]
  | ok target =>
    dsimp only
    rw [Prog.perform_bind, run_call, markIssued_answer healthy]
    refine ⟨?_, ?_⟩
    · change answer _ ≠ .panicked
      generalize (exec env t (.store (.certificate value.id)) _).1 = found
      cases found <;> exact (fun h => nomatch h)
    · have ends := @succeed_view env t value j u healthy material event
      rw [moved] at ends
      exact ends

/-- What an issue makes of the outcome of the engine. -/
theorem finishIssue_view {obtained : Obtained} (sound : obtained ≠ .panicked)
    (actor clientIP : String) :
    (run (exec env t) (finishIssue value j obtained
        (fun c => store (.markCertificateIssued c)) "certificate.issue" actor clientIP) w).1 ≠
        .panicked ∧
      view value.id j (run (exec env t) (finishIssue value j obtained
        (fun c => store (.markCertificateIssued c)) "certificate.issue" actor clientIP) w).2 =
        (view value.id j w).recorded env value obtained := by
  have refused : ∀ exit output err u, (run (exec env t) (failRenewal value j exit output err
        "certificate.issue" actor clientIP) u).1 = .error err ∧
      view value.id j (run (exec env t) (failRenewal value j exit output err
        "certificate.issue" actor clientIP) u).2 = (view value.id j u).refused exit output err :=
    fun exit output err u => failRenewal_view healthy exit output err _ actor clientIP
  have spoken : ∀ {o : Outcome Certificate} {err}, o = .error err → o ≠ .panicked := by
    rintro o err rfl
    exact (fun h => nomatch h)
  cases obtained with
  | panicked => exact absurd rfl sound
  | failed exit err => exact ⟨spoken (refused exit [] err w).1, (refused exit [] err w).2⟩
  | material material =>
    have parts : finishIssue value j (.material material) (fun c => store (.markCertificateIssued c))
        "certificate.issue" actor clientIP =
          publishAndRecord value material j (fun c => store (.markCertificateIssued c))
            "certificate.issue" actor clientIP := rfl
    have begun : view value.id j (exec env t .now w).2 = (view value.id j w).tick := rfl
    have read : (exec env t .now w).1 = env.clock w.ticks := rfl
    have ticks : (view value.id j w).ticks = w.ticks := rfl
    rw [parts, publishAndRecord_eq, clock, Prog.perform_bind, run_call, read]
    simp only [View.recorded, ticks]
    cases metadataDocument value material.metadata (env.clock w.ticks) with
    | error err =>
      obtain ⟨outcome, seen⟩ := refused material.exit material.output err (exec env t .now w).2
      exact ⟨spoken outcome, seen⟩
    | ok document => exact concluded_view healthy (refused material.exit material.output)

/-- What a creation makes of the outcome of its engine, if that fits. -/
theorem deliver_view {obtained : Obtained} (sound : obtained ≠ .panicked)
    (fits : ∀ material, obtained = .material material →
      fitsJSON material.metadata (env.clock w.ticks) = true) (event : Event) (actor clientIP : String) :
    (run (exec env t) (deliver value j event actor clientIP obtained) w).1 ≠ .panicked ∧
      view value.id j (run (exec env t) (deliver value j event actor clientIP obtained) w).2 =
        (view value.id j w).recorded env value obtained := by
  cases obtained with
  | panicked => exact absurd rfl sound
  | failed exit err =>
    have refused : (run (exec env t) (failRenewal value j exit [] err "certificate.create" actor
          clientIP) w).1 = .error err ∧
        view value.id j (run (exec env t) (failRenewal value j exit [] err "certificate.create"
          actor clientIP) w).2 = (view value.id j w).refused exit [] err :=
      failRenewal_view healthy exit [] err _ actor clientIP
    refine ⟨?_, refused.2⟩
    change (run (exec env t) (failRenewal value j exit [] err "certificate.create" actor
      clientIP) w).1 ≠ .panicked
    rw [refused.1]
    exact (fun h => nomatch h)
  | material material =>
    have begun : view value.id j (exec env t .now w).2 = (view value.id j w).tick := rfl
    have read : (exec env t .now w).1 = env.clock w.ticks := rfl
    have ticks : (view value.id j w).ticks = w.ticks := rfl
    simp only [deliver, View.recorded, ticks]
    rw [clock, Prog.perform_bind, run_call, read]
    cases made : metadataDocument value material.metadata (env.clock w.ticks) with
    | error err =>
      have unfit := metadataDocument_error made
      rw [fits material rfl] at unfit
      cases unfit
    | ok document =>
      exact concluded_view healthy fun err u =>
        ⟨rfl, silent_view healthy material.exit material.output err _⟩

omit healthy

/-- A creation says nothing of material that does not fit. -/
theorem deliver_unfit {material : Material}
    (unfit : fitsJSON material.metadata (env.clock w.ticks) = false) (event : Event)
    (actor clientIP : String) :
    view value.id j (run (exec env t) (deliver value j event actor clientIP (.material material))
      w).2 = (view value.id j w).tick := by
  have begun : view value.id j (exec env t .now w).2 = (view value.id j w).tick := rfl
  have read : (exec env t .now w).1 = env.clock w.ticks := rfl
  simp only [deliver]
  rw [clock, Prog.perform_bind, run_call, read]
  cases made : metadataDocument value material.metadata (env.clock w.ticks) with
  | error err => exact begun
  | ok document =>
    rw [metadataDocument_ok made] at unfit
    cases unfit

end Tails

/-- A certificate whose record has been inserted and whose job has begun. -/
def begun (w : World) (value : Certificate) (ticks : Nat) : View where
  row := some (timeless { newRow (fun _ => 0) value w.db.certificates.next with status := .issuing })
  job := some (typeless (newRun (fun _ => 0) (runningJob w.db.certificates.next .issue)
    w.db.jobs.next))
  fs := w.fs
  engineCalls := w.engineCalls w.db.certificates.next
  ticks := ticks

def underLock {α : Type} (id : Id) (busy : α) (p : Operation α) : Operation α := do
  let lock ← loadOrStore id
  match ← tryLock lock with
  | false => return busy
  | true =>
    let result ← p
    let _ ← unlock lock
    return result

/-- An issue by its parts. -/
theorem issue_eq (s : Service) (id : Id) (actor clientIP : String) :
    issue s id actor clientIP = (do
      match ← get id with
      | .error err => return .error err
      | .ok value =>
        if !manualIssueAllowed value.status then return .error (.new "当前证书状态不允许重新签发")
        else
          match ← get id with
          | .error err => return .error err
          | .ok value =>
            underLock id (Outcome.error .operationRunning)
              (if !manualIssueAllowed value.status then
                Prog.ret (Outcome.error (.new "当前证书状态不允许重新签发"))
              else issueExistingCertificate s value actor clientIP)) := by
  refine bind_congr fun found => ?_
  cases found with
  | error err => rfl
  | ok value => rfl

section Heads
variable {env : Environment} {t : Nat} {value stored : Certificate} {w : World}
variable (healthy : Healthy env.backend)
include healthy

omit healthy in
theorem createCertificate_jobs {B : Backend} {db : Db} (value : Certificate) :
    (SqliteStore.exec B (.createCertificate value) db).2.jobs = db.jobs := by
  unfold SqliteStore.exec
  split
  · rfl
  · simp only [act]
    repeat' first | rfl | split

/-- A job is recorded for the certificate that is there. -/
theorem started_view {id : Id} {row : Certificate} (there : w.db.row id = some row)
    (jobType : JobType) :
    ∃ job : Run, job.id = w.db.jobs.next ∧
      (exec env t (.store (.createJob (runningJob id jobType))) w).1 = .ok job ∧
      view id w.db.jobs.next (after env t (.createJob (runningJob id jobType)) w) =
        { view id w.db.jobs.next w with
          job := some (typeless (newRun (fun _ => 0) (runningJob id .issue) w.db.jobs.next)) } := by
  have known : referenced w.db (runningJob id jobType).certificateID = true := by
    simp [referenced, runningJob, there]
  obtain ⟨answer, seen⟩ := @createJob_view env t id w healthy _ known
  exact ⟨_, rfl, answer, seen⟩

/-- A creation up to its engine. -/
theorem created_run (issuing : value.status = .issuing)
    (inserted : (SqliteStore.exec env.backend (.createCertificate value) w.db).1 = .ok stored)
    (jobType : JobType) (engine : Certificate → Operation Obtained)
    (detail : List (String × Detail))
    (actor clientIP : String) : ∃ u, view w.db.certificates.next w.db.jobs.next u =
        begun w value w.ticks ∧
      run (exec env t) (issueCreated value jobType engine detail actor clientIP) w =
        run (exec env t) (engine stored >>= deliver stored w.db.jobs.next
          (auditEvent stored.id "certificate.create" actor clientIP "succeeded" detail) actor
          clientIP) u := by
  obtain ⟨rfl, there, -, -⟩ := createCertificate_ok inserted
  have jobs : (after env t (.createCertificate value) w).db.jobs.next = w.db.jobs.next :=
    congrArg KeyedTables.Table.next (createCertificate_jobs value)
  have row : (after env t (.createCertificate value) w).db.row w.db.certificates.next =
      some (newRow (env.backend.clock w.db.calls) value w.db.certificates.next) := there
  obtain ⟨job, numbered, answer, seen⟩ := started_view (t := t) healthy row jobType
  rw [jobs] at numbered seen
  refine ⟨_, seen.trans ?_, ?_⟩
  · have same : timeless (newRow (env.backend.clock w.db.calls) value w.db.certificates.next) =
        timeless { newRow (fun _ => 0) value w.db.certificates.next with status := .issuing } := by
      rw [← issuing]
      rfl
    unfold view begun
    rw [row, Option.map_some, same]
    rfl
  · rw [issueCreated_eq, Prog.perform_bind, run_call]
    have read : (exec env t (.store (.createCertificate value)) w).1 =
        .ok (createdValue (env.backend.clock w.db.calls) value w.db.certificates.next) := inserted
    rw [read]
    dsimp only
    rw [Prog.perform_bind, run_call]
    have started : (exec env t (.store (.createJob (runningJob (createdValue (env.backend.clock
        w.db.calls) value w.db.certificates.next).id jobType)))
          (exec env t (.store (.createCertificate value)) w).2).1 = .ok job := answer
    rw [started]
    dsimp only
    rw [numbered]
    rfl

/-- Nobody is at work on the certificate: the lock of its entry, or the one that it
is to get, has no holder. -/
def Unlocked (w : World) (id : Id) : Prop := w.holder ((w.locks id).getD w.nextLock) = none

omit healthy in
/-- With the lock free the work is done under it. -/
theorem locked_run {α : Type} {id : Id} (free : Unlocked w id) (busy : α) (p : Operation α) :
    ∃ u, u.db = w.db ∧ (∀ j, view id j u = view id j w) ∧
      (run (exec env t) (underLock id busy p) w).1 = (run (exec env t) p u).1 ∧
      ∀ j, view id j (run (exec env t) (underLock id busy p) w).2 =
        view id j (run (exec env t) p u).2 := by
  unfold Unlocked at free
  cases entry : w.locks id with
  | none =>
    rw [entry, Option.getD_none] at free
    simp only [underLock, loadOrStore, tryLock, Prog.perform_bind, run_call, exec, entry, free,
      run_bind]
    exact ⟨{ w with
      locks := Function.update w.locks id (some w.nextLock)
      nextLock := w.nextLock + 1
      holder := Function.update w.holder w.nextLock (some t) },
      rfl, fun _ => rfl, rfl, fun _ => rfl⟩
  | some lock =>
    rw [entry, Option.getD_some] at free
    simp only [underLock, loadOrStore, tryLock, Prog.perform_bind, run_call, exec, entry, free,
      run_bind]
    exact ⟨{ w with holder := Function.update w.holder lock (some t) },
      rfl, fun _ => rfl, rfl, fun _ => rfl⟩

/-- The record is set to `issuing` and the job recorded. -/
theorem existing_run {id : Id} {row : Certificate} (s : Service) (there : w.db.row id = some row)
    (allowed : (if row.mode = .acme then validateACMEDomains row.primaryDomain row.domains
      else .ok ()) = .ok ()) (actor clientIP : String) :
    ∃ u, view id w.db.jobs.next u = { (view id w.db.jobs.next w).set .issuing with
        job := some (typeless (newRun (fun _ => 0) (runningJob id .issue) w.db.jobs.next)) } ∧
      run (exec env t) (issueExistingCertificate s row actor clientIP) w =
        run (exec env t) (issueMaterial s row >>= fun obtained => finishIssue row w.db.jobs.next
          obtained (fun c => store (.markCertificateIssued c)) "certificate.issue" actor clientIP) u := by
  have named := Db.id_of_row there
  subst named
  have set : SqliteStore.exec env.backend (.setCertificateStatus row.id .issuing) w.db =
      (.ok (), (w.db.update row.id (setCertificateStatus (env.backend.clock w.db.calls)
        .issuing)).tick) := by
    rw [exec_healthy healthy]
    rfl
  have answered : (exec env t (.store (.setCertificateStatus row.id .issuing)) w).1 = .ok () :=
    congrArg Prod.fst set
  have state : (after env t (.setCertificateStatus row.id .issuing) w).db =
      (w.db.update row.id (setCertificateStatus (env.backend.clock w.db.calls) .issuing)).tick :=
    congrArg Prod.snd set
  have present : (after env t (.setCertificateStatus row.id .issuing) w).db.row row.id =
      some ((setCertificateStatus (env.backend.clock w.db.calls) .issuing).apply row) := by
    rw [state, Db.row_tick, Db.row_update, if_pos rfl, there, Option.map_some]
  have jobs : (after env t (.setCertificateStatus row.id .issuing) w).db.jobs.next =
      w.db.jobs.next := by
    rw [state]
    rfl
  obtain ⟨job, numbered, started, seen⟩ := started_view (t := t) healthy present .issue
  rw [jobs] at numbered seen
  rw [setStatus_view healthy] at seen
  refine ⟨_, seen, ?_⟩
  unfold issueExistingCertificate
  rw [allowed]
  dsimp only
  rw [Prog.perform_bind, run_call, answered]
  dsimp only
  rw [Prog.perform_bind, run_call, started]
  dsimp only
  rw [numbered]

/-- An issue of a record in status `pending`, up to the engine. -/
theorem issued_run {id : Id} {row : Certificate} (s : Service) (there : w.db.row id = some row)
    (pending : row.status = .pending) (free : Unlocked w id)
    (allowed : (if row.mode = .acme then validateACMEDomains row.primaryDomain row.domains
      else .ok ()) = .ok ()) (actor clientIP : String) :
    ∃ u, view id w.db.jobs.next u = { (view id w.db.jobs.next w).set .issuing with
        job := some (typeless (newRun (fun _ => 0) (runningJob id .issue) w.db.jobs.next)) } ∧
      (run (exec env t) (issue s id actor clientIP) w).1 =
        (run (exec env t) (issueMaterial s row >>= fun obtained => finishIssue row w.db.jobs.next
          obtained (fun c => store (.markCertificateIssued c)) "certificate.issue" actor clientIP) u).1 ∧
      view id w.db.jobs.next (run (exec env t) (issue s id actor clientIP) w).2 =
        view id w.db.jobs.next (run (exec env t) (issueMaterial s row >>= fun obtained =>
          finishIssue row w.db.jobs.next obtained (fun c => store (.markCertificateIssued c))
            "certificate.issue" actor clientIP) u).2 := by
  -- The two readings change nothing but the count of the calls.
  have reading : ∀ w : World, w.db.row id = some row →
      (exec env t (.store (.certificate id)) w).1 = .ok row ∧
        (after env t (.certificate id) w).db = w.db.tick := by
    intro w there
    have answered : SqliteStore.exec env.backend (.certificate id) w.db = (.ok row, w.db.tick) := by
      rw [exec_healthy healthy]
      simp only [act, there]
    exact ⟨congrArg Prod.fst answered, congrArg Prod.snd answered⟩
  obtain ⟨first, once⟩ := reading w there
  obtain ⟨second, twice⟩ := reading (after env t (.certificate id) w) (once ▸ there)
  have open_ : manualIssueAllowed row.status = true := by
    rw [pending]
    rfl
  obtain ⟨u₀, db, same, outcome, final⟩ := @locked_run env t
    (after env t (.certificate id) (after env t (.certificate id) w)) _ id
    free (Outcome.error Error.operationRunning)
    (issueExistingCertificate s row actor clientIP)
  have db : u₀.db = w.db.tick.tick := by rw [db, twice, once]
  have jobs : u₀.db.jobs.next = w.db.jobs.next := by
    rw [db]
    rfl
  have present : u₀.db.row id = some row := by
    rw [db]
    exact there
  obtain ⟨u, seen, rest⟩ := existing_run (t := t) healthy s present allowed actor clientIP
  rw [jobs, same, certificate_view, certificate_view] at seen
  rw [jobs] at rest
  have run_eq : run (exec env t) (issue s id actor clientIP) w =
      run (exec env t) (underLock id (Outcome.error Error.operationRunning)
        (issueExistingCertificate s row actor clientIP))
        (after env t (.certificate id) (after env t (.certificate id) w)) := by
    rw [issue_eq, CertificateService.get, Prog.perform_bind, run_call, first]
    dsimp only
    rw [open_, Bool.not_true, if_neg Bool.false_ne_true, Prog.perform_bind, run_call, second]
    dsimp only
    rw [open_, Bool.not_true, if_neg Bool.false_ne_true]
  refine ⟨u, seen, ?_, ?_⟩
  · rw [run_eq, outcome, rest]
  · rw [run_eq, final, rest]

end Heads

end OperationViews
