import CertMate.OperationEnds
import CertMate.ThreadLedgers

/-!
# Every finished job is audited

Operations that issue, renew or revoke, in any interleaving. For each kind of
operation, certificate and result the jobs that have ended are as many as the
audit events, once every operation has ended, as long as no publication of a
creation fails. A creation whose publication fails ends its job without a word.
-/
namespace AuditedJobs
open CertificateModel CallTrees ThreadPools ServiceWorld CertificateService
open SqliteStore hiding exec
open OperationEnds (Work)
open DomainValidation (trimSpace normalizeDomains)

/-- The kinds of operation that have a job. -/
inductive Kind where
  | create
  | issue
  | renew
  | forceRenew
  | revoke
  deriving DecidableEq, Repr

def Kind.eventType : Kind → String
  | .create => "certificate.create"
  | .issue => "certificate.issue"
  | .renew => "certificate.renew"
  | .forceRenew => "certificate.force_renew"
  | .revoke => "certificate.revoke"

def kindOf : JobType → Kind
  | .selfSignedIssue | .acmeIssue => .create
  | .issue => .issue
  | .renew => .renew
  | .forceRenew => .forceRenew
  | .revoke => .revoke

/-- What a job and its event have in common. -/
structure Entry where
  certificate : Id
  kind : Kind
  succeeded : Bool
  deriving DecidableEq, Repr

def Entry.status (i : Entry) : JobStatus := if i.succeeded then .succeeded else .failed

def Entry.result (i : Entry) : String := if i.succeeded then "succeeded" else "failed"

/-- The job has ended so. -/
def ended (i : Entry) (r : Run) : Bool :=
  r.certificateID = some i.certificate && kindOf r.jobType = i.kind && r.status = i.status

/-- The event says so. -/
def reported (i : Entry) (e : Event) : Bool :=
  e.certificateID = some i.certificate && e.eventType = i.kind.eventType && e.result = i.result

def jobsEnded (db : Db) (i : Entry) : Nat := db.jobs.rows.countP (ended i)

def eventsReported (db : Db) (i : Entry) : Nat := db.audits.rows.countP (reported i)

theorem eventType_injective {k k' : Kind} (h : k.eventType = k'.eventType) : k = k' := by
  cases k <;> cases k' <;> first | rfl | exact absurd h (by decide)

/-- The event that is written for a job says how it has ended. -/
theorem reported_eq_ended {run : Run} {certificate : Id} {result actor clientIP : String}
    {detail : List (String × Detail)} (about : run.certificateID = some certificate)
    (same : (run.status = .succeeded ∧ result = "succeeded") ∨
      (run.status = .failed ∧ result = "failed")) (i : Entry) :
    reported i (auditEvent certificate (kindOf run.jobType).eventType actor clientIP result detail) =
      ended i run := by
  have kinds : (kindOf run.jobType).eventType = i.kind.eventType ↔ kindOf run.jobType = i.kind :=
    ⟨eventType_injective, congrArg Kind.eventType⟩
  have results : result = i.result ↔ run.status = i.status := by
    unfold Entry.result Entry.status
    rcases same with ⟨status, rfl⟩ | ⟨status, rfl⟩ <;> rw [status] <;> cases i.succeeded <;> decide
  apply Bool.eq_iff_iff.mpr
  simp [reported, ended, auditEvent, about, kinds, results]

/-- The job under way, the job that has ended and is not yet audited, whether an
engine has delivered, and whether a creation has ended its job as failed after
that. -/
structure Docket where
  job : Option Run
  owed : Option Run
  delivered : Bool
  silent : Bool

def Docket.new : Docket := ⟨none, none, false, false⟩

/-- A creation that has its material ends its job as failed. -/
def Docket.silences (b : Docket) (status : JobStatus) : Bool :=
  b.delivered && status = .failed && b.job.any fun job => kindOf job.jobType = .create

def note (b : Docket) : (e : Eff) → Ans e → Docket
  | .store (.createJob _), .ok job => { b with job := some job }
  | .store (.finishJob _ status _ _ _), _ =>
    { b with
      job := none
      owed := b.job.map fun job => { job with status := status }
      silent := b.silent || b.silences status }
  | .store (.createAuditEvent _), _ => { b with owed := none }
  | .issueSelfSigned _ _, .ok (some _) => { b with delivered := true }
  | .issueACME _ _, .ok (some _) => { b with delivered := true }
  | _, _ => b

/-- A job is ended once, and an event is about the job that has ended. -/
def allows (b : Docket) : Eff → Prop
  | .store (.createJob run) => b.job = none ∧ b.owed = none ∧ run.status = .running ∧
      run.certificateID ≠ none
  | .store (.finishJob id status _ _ _) => b.owed = none ∧ (∃ job, b.job = some job ∧ job.id = id) ∧
      status ≠ .running
  | .store (.createAuditEvent event) => ∃ run, b.owed = some run ∧
      event.certificateID = run.certificateID ∧ ∀ i, reported i event = ended i run
  | .store (.deleteCertificateWithAudit _ _) => False
  | _ => True

/-- What every world answers. -/
def Honest : (e : Eff) → Ans e → Prop
  | .store (.createJob run), .ok job => job.certificateID = run.certificateID ∧
      job.jobType = run.jobType ∧ job.status = run.status
  | _, _ => True

theorem exec_honest (env : Environment) (thread : Nat) (e : Eff) (w : World) :
    Honest e (exec env thread e w).1 := by
  cases e with
  | store q =>
    cases q with
    | createJob run =>
      have honest : Honest (.store (.createJob run))
          (SqliteStore.exec env.backend (.createJob run) w.db).1 := by
        cases answered : (SqliteStore.exec env.backend (.createJob run) w.db).1 with
        | error err => trivial
        | ok job =>
          have answer := (exec_ok answered).1
          simp only [act] at answer
          split at answer
          · cases answer
            exact ⟨rfl, rfl, rfl⟩
          · cases answer
      exact honest
    | _ => trivial
  | _ => trivial

/-- An operation that has ended has audited its job, unless it is a creation that
was silent. -/
def Closed (b : Docket) : Prop := b.silent = true ∨ b.owed = none

section Operations
variable {s : Service}

-- A goal about a program is otherwise reduced as far as the texts in it go.
attribute [local irreducible] trimSpace normalizeDomains

abbrev Keeps {α : Type} (p : Operation α) (b : Docket) (Q : α → Docket → Prop) : Prop :=
  Follows Honest allows note p b Q

/-- A call that may always be made and is not noted. -/
def Unnoted : Eff → Prop
  | .store (.createJob _) | .store (.finishJob _ _ _ _ _) | .store (.createAuditEvent _)
  | .store (.deleteCertificateWithAudit _ _) | .issueSelfSigned _ _ | .issueACME _ _ => False
  | _ => True

theorem allows_unnoted {e : Eff} (h : Unnoted e) (b : Docket) : allows b e := by
  cases e with
  | store q => cases q <;> trivial
  | _ => trivial

theorem note_unnoted {e : Eff} (h : Unnoted e) (b : Docket) (r : Ans e) : note b e r = b := by
  cases e with
  | store q => cases q <;> first | rfl | exact h.elim
  | issueSelfSigned | issueACME => exact h.elim
  | _ => rfl

theorem keeps_unnoted {α : Type} {e : Eff} {k : Ans e → Operation α} {b : Docket}
    {Q : α → Docket → Prop} (h : Unnoted e) (rest : ∀ r, Keeps (k r) b Q) :
    Keeps (Prog.perform e >>= k) b Q := by
  refine follows_call.mpr ⟨allows_unnoted h b, fun r _ => ?_⟩
  rw [note_unnoted h]
  exact rest r

theorem publisher_keeps {α : Type} (certificate : Id) (p : CertificateFiles.Files α) (b : Docket) :
    Keeps (publisher certificate p) b fun _ b' => b' = b := by
  induction p with
  | ret a => exact rfl
  | call e k ih => exact keeps_unnoted trivial fun r => ih r

/-- The operation works on this job for the certificate. -/
structure Working (b : Docket) (certificate job : Id) (kind : Kind) : Prop where
  job : ∃ run, b.job = some run ∧ run.id = job ∧ run.certificateID = some certificate ∧
    kindOf run.jobType = kind
  free : b.owed = none

/-- The job has ended and its event is to be written. -/
def Owing (b : Docket) (certificate : Id) (kind : Kind) (status : JobStatus) : Prop :=
  ∃ run, b.owed = some run ∧ run.certificateID = some certificate ∧ kindOf run.jobType = kind ∧
    run.status = status

theorem Working.delivered {b : Docket} {certificate job : Id} {kind : Kind}
    (h : Working b certificate job kind) : Working { b with delivered := true } certificate job kind :=
  ⟨h.job, h.free⟩

theorem Working.silences {b : Docket} {certificate job : Id}
    (h : Working b certificate job .create) (delivered : b.delivered = true) :
    b.silences .failed = true := by
  obtain ⟨run, there, -, -, kind⟩ := h.job
  simp [Docket.silences, delivered, there, kind]

theorem start_keeps {α : Type} {certificate : Id} {jobType : JobType} {b : Docket}
    {k : Except Error Run → Operation α} {Q : α → Docket → Prop} (idle : b.job = none)
    (free : b.owed = none) (refused : ∀ err, Keeps (k (.error err)) b Q)
    (started : ∀ job b', Working b' certificate job.id (kindOf jobType) → Keeps (k (.ok job)) b' Q) :
    Keeps (store (.createJob (runningJob certificate jobType)) >>= k) b Q := by
  refine follows_call.mpr ⟨⟨idle, free, rfl, (fun h => nomatch h)⟩, fun r honest => ?_⟩
  cases r with
  | error err => exact refused err
  | ok job =>
    obtain ⟨about, type, -⟩ := honest
    exact started job _ ⟨⟨job, rfl, rfl, about, congrArg kindOf type⟩, free⟩

theorem finish_keeps {α : Type} {certificate job : Id} {kind : Kind} {b : Docket} {exit : Int}
    {output message : Bytes} {status : JobStatus} {k : Except Error Unit → Operation α}
    {Q : α → Docket → Prop} (working : Working b certificate job kind) (ends : status ≠ .running)
    (rest : ∀ r b', Owing b' certificate kind status →
      b'.silent = (b.silent || b.silences status) → Keeps (k r) b' Q) :
    Keeps (store (.finishJob job status exit output message) >>= k) b Q := by
  obtain ⟨run, there, numbered, about, kinds⟩ := working.job
  refine follows_call.mpr ⟨⟨working.free, ⟨run, there, numbered⟩, ends⟩, fun r _ => ?_⟩
  refine rest r _ ⟨{ run with status := status }, ?_, about, kinds, rfl⟩ rfl
  change b.job.map _ = _
  rw [there]
  rfl

theorem audit_keeps {α : Type} {certificate : Id} {kind : Kind} {status : JobStatus}
    {result actor clientIP : String} {detail : List (String × Detail)} {b : Docket}
    {k : Except Error Unit → Operation α} {Q : α → Docket → Prop}
    (owing : Owing b certificate kind status)
    (same : (status = .succeeded ∧ result = "succeeded") ∨ (status = .failed ∧ result = "failed"))
    (rest : ∀ r b', b'.owed = none → Keeps (k r) b' Q) :
    Keeps (audit certificate kind.eventType actor clientIP result detail >>= k) b Q := by
  obtain ⟨run, owed, about, rfl, rfl⟩ := owing
  refine follows_call.mpr ⟨⟨run, owed, about.symm, reported_eq_ended about same⟩, fun r _ => ?_⟩
  exact rest r _ rfl

theorem failRenewal_keeps {value : Certificate} {job : Id} {kind : Kind} {b : Docket}
    (working : Working b value.id job kind) (exit : Int) (output : Bytes) (renewErr : Error)
    (actor clientIP : String) :
    Keeps (failRenewal value job exit output renewErr kind.eventType actor clientIP) b
      fun _ => Closed := by
  refine finish_keeps working (by decide) fun _ b' owing _ => keeps_unnoted trivial fun _ => ?_
  exact audit_keeps owing (Or.inr ⟨rfl, rfl⟩) fun _ b'' paid => Or.inr paid

/-- The two calls that record new material. -/
def Marks (mark : Certificate → Operation (Except Error Unit)) : Prop :=
  mark = (fun c => store (.markCertificateIssued c)) ∨
    mark = fun c => store (.markCertificateRenewed c)

theorem mark_keeps {α : Type} {mark : Certificate → Operation (Except Error Unit)}
    (marks : Marks mark) {c : Certificate} {b : Docket} {k : Except Error Unit → Operation α}
    {Q : α → Docket → Prop} (rest : ∀ r, Keeps (k r) b Q) : Keeps (mark c >>= k) b Q := by
  rcases marks with rfl | rfl
  · exact keeps_unnoted trivial rest
  · exact keeps_unnoted trivial rest

/-- The end of an operation that has gone well. -/
theorem succeed_keeps {α : Type} {value : Certificate} {job : Id} {kind : Kind} {b : Docket}
    (working : Working b value.id job kind) (exit : Int) (output : Bytes) (actor clientIP : String)
    (detail : List (String × Detail)) {f : Except Error Certificate → α} :
    Keeps (do
        let _ ← store (.finishJob job .succeeded exit output [])
        let _ ← audit value.id kind.eventType actor clientIP "succeeded" detail
        let found ← get value.id
        return f found) b
      fun _ => Closed := by
  refine finish_keeps working (by decide) fun _ b' owing _ => ?_
  refine audit_keeps owing (Or.inl ⟨rfl, rfl⟩) fun _ b'' paid => ?_
  exact keeps_unnoted trivial fun _ => Or.inr paid

theorem finishIssue_keeps {value : Certificate} {job : Id} {kind : Kind}
    {mark : Certificate → Operation (Except Error Unit)} (marks : Marks mark) {b : Docket}
    (working : Working b value.id job kind) (obtained : Obtained) (actor clientIP : String) :
    Keeps (finishIssue value job obtained mark kind.eventType actor clientIP) b
      fun _ => Closed := by
  cases obtained with
  | panicked => exact Or.inr working.free
  | failed exit err => exact failRenewal_keeps working _ _ _ _ _
  | material material =>
    refine keeps_unnoted trivial fun now => ?_
    split
    · exact failRenewal_keeps working _ _ _ _ _
    · refine (publisher_keeps value.id _ _).bind ?_
      rintro published _ rfl
      cases published with
      | error err => exact failRenewal_keeps working _ _ _ _ _
      | ok _ =>
        refine mark_keeps marks fun marked => ?_
        cases marked with
        | error err => exact Or.inr working.free
        | ok _ => exact succeed_keeps working _ _ _ _ _

theorem renewMaterial_keeps (value : Certificate) (force : Bool) (b : Docket) :
    Keeps (renewMaterial s value force) b fun _ b' => b' = b := by
  unfold renewMaterial
  split
  · split
    · exact keeps_unnoted trivial fun _ => rfl
    · exact rfl
  · split
    · split
      · split
        · refine keeps_unnoted trivial fun resolved => ?_
          cases resolved with
          | error err => exact rfl
          | ok values => exact keeps_unnoted trivial fun _ => rfl
        · exact rfl
      · exact keeps_unnoted trivial fun _ => rfl
    · exact rfl
  · exact rfl

/-- An engine that is asked to issue may deliver. -/
theorem issueACME_keeps {α : Type} {certificate : Id} {order : IssueRequest} {b : Docket}
    {k : Except CommandFailure (Option ACMEResult) → Operation α} {Q : α → Docket → Prop}
    (refused : ∀ err, Keeps (k (.error err)) b Q) (nothing : Keeps (k (.ok none)) b Q)
    (made : ∀ result, Keeps (k (.ok (some result))) { b with delivered := true } Q) :
    Keeps (issueACME certificate order >>= k) b Q := by
  refine follows_call.mpr ⟨trivial, fun r _ => ?_⟩
  rcases r with err | _ | result
  · exact refused err
  · exact nothing
  · exact made result

theorem issueSelfSigned_keeps {α : Type} {certificate : Id} {order : SelfSignedRequest} {b : Docket}
    {k : Except CommandFailure (Option SelfSignedResult) → Operation α} {Q : α → Docket → Prop}
    (refused : ∀ err, Keeps (k (.error err)) b Q) (nothing : Keeps (k (.ok none)) b Q)
    (made : ∀ result, Keeps (k (.ok (some result))) { b with delivered := true } Q) :
    Keeps (issueSelfSigned certificate order >>= k) b Q := by
  refine follows_call.mpr ⟨trivial, fun r _ => ?_⟩
  rcases r with err | _ | result
  · exact refused err
  · exact nothing
  · exact made result

theorem issueMaterial_keeps {certificate job : Id} {kind : Kind} {b : Docket}
    (working : Working b certificate job kind) (value : Certificate) :
    Keeps (issueMaterial s value) b fun _ b' => Working b' certificate job kind := by
  unfold issueMaterial
  split
  · split
    · exact issueSelfSigned_keeps (fun _ => working) working fun _ => working.delivered
    · exact working
  · split
    · split
      · split
        · refine keeps_unnoted trivial fun resolved => ?_
          cases resolved with
          | error err => exact working
          | ok values => exact issueACME_keeps (fun _ => working) working fun _ => working.delivered
        · exact working
      · split
        · exact issueACME_keeps (fun _ => working) working fun _ => working.delivered
        · exact working
    · exact working
  · exact working

theorem issueExistingCertificate_keeps (value : Certificate) (actor clientIP : String) :
    Keeps (issueExistingCertificate s value actor clientIP) .new fun _ => Closed := by
  unfold issueExistingCertificate
  split
  · exact Or.inr rfl
  · refine keeps_unnoted trivial fun marked => ?_
    cases marked with
    | error err => exact Or.inr rfl
    | ok _ =>
      refine start_keeps rfl rfl (fun err => keeps_unnoted trivial fun _ => Or.inr rfl) ?_
      intro job b working
      refine (issueMaterial_keeps working value).bind fun obtained b' working' => ?_
      have working' : Working b' value.id job.id .issue := working'
      exact finishIssue_keeps (Or.inl rfl) working' obtained actor clientIP

theorem renewLocked_keeps (value : Certificate) (force : Bool) (jobType : JobType)
    (actor clientIP : String) :
    Keeps (renewLocked s value force jobType (kindOf jobType).eventType actor clientIP) .new
      fun _ => Closed := by
  unfold renewLocked
  split
  · exact Or.inr rfl
  · refine keeps_unnoted trivial fun marked => ?_
    cases marked with
    | error err => exact Or.inr rfl
    | ok _ =>
      refine start_keeps rfl rfl (fun err => Or.inr rfl) ?_
      intro job b working
      refine (renewMaterial_keeps value force b).bind ?_
      rintro obtained _ rfl
      exact finishIssue_keeps (Or.inr rfl) working obtained actor clientIP

theorem issueLocked_keeps (value : Certificate) (force : Bool) (jobType : JobType)
    (actor clientIP : String) :
    Keeps (issueLocked s value force jobType (kindOf jobType).eventType actor clientIP) .new
      fun _ => Closed := by
  unfold issueLocked
  split
  · split
    · exact Or.inr rfl
    · exact issueExistingCertificate_keeps value actor clientIP
  · exact renewLocked_keeps value force jobType actor clientIP

/-- The lock does not matter. -/
theorem locked_keeps {α : Type} {busy : α} {id : Id} {p : Operation α} {b : Docket}
    {Q : α → Docket → Prop} (refused : Q busy b) (h : Keeps p b Q) :
    Keeps (do
      let lock ← loadOrStore id
      match ← tryLock lock with
      | false => return busy
      | true =>
        let result ← p
        let _ ← unlock lock
        return result) b Q := by
  refine keeps_unnoted trivial fun lock => keeps_unnoted trivial fun taken => ?_
  cases taken with
  | false => exact refused
  | true => exact h.bind fun result b' ended => keeps_unnoted trivial fun _ => ended

theorem issueExisting_keeps (id : Id) (force : Bool) (jobType : JobType) (actor clientIP : String) :
    Keeps (issueExisting s id force jobType (kindOf jobType).eventType actor clientIP) .new
      fun _ => Closed := by
  refine keeps_unnoted trivial fun found => ?_
  cases found with
  | error err => exact Or.inr rfl
  | ok value => exact locked_keeps (Or.inr rfl) (issueLocked_keeps value force jobType actor clientIP)

theorem renew_keeps (id : Id) (force : Bool) (actor clientIP : String) :
    Keeps (renew s id force actor clientIP) .new fun _ => Closed := by
  unfold renew
  split
  · exact issueExisting_keeps id force .forceRenew actor clientIP
  · exact issueExisting_keeps id force .renew actor clientIP

theorem issue_keeps (id : Id) (actor clientIP : String) :
    Keeps (issue s id actor clientIP) .new fun _ => Closed := by
  refine keeps_unnoted trivial fun found => ?_
  cases found with
  | error err => exact Or.inr rfl
  | ok value =>
    dsimp only
    split
    · exact Or.inr rfl
    · exact issueExisting_keeps id true .issue actor clientIP

theorem revokeLocked_keeps (value : Certificate) (actor clientIP : String) :
    Keeps (revokeLocked value actor clientIP) .new fun _ => Closed := by
  refine start_keeps rfl rfl (fun err => Or.inr rfl) ?_
  intro job b working
  refine keeps_unnoted trivial fun revoked => ?_
  cases revoked with
  | error refusal =>
    refine finish_keeps working (by decide) fun _ b' owing _ => ?_
    have owing : Owing b' value.id .revoke .failed := owing
    exact audit_keeps owing (Or.inr ⟨rfl, rfl⟩) fun _ b'' paid => Or.inr paid
  | ok _ =>
    refine keeps_unnoted trivial fun marked => ?_
    cases marked with
    | error err => exact Or.inr working.free
    | ok _ =>
      have working : Working b value.id job.id .revoke := working
      exact succeed_keeps working _ _ _ _ _

theorem revoke_keeps (id : Id) (actor clientIP : String) :
    Keeps (revoke s id actor clientIP) .new fun _ => Closed := by
  refine keeps_unnoted trivial fun found => ?_
  cases found with
  | error err => exact Or.inr rfl
  | ok value =>
    dsimp only
    split
    · exact Or.inr rfl
    · split
      · exact Or.inr rfl
      · exact locked_keeps (Or.inr rfl) (revokeLocked_keeps value actor clientIP)

/-- What an engine leaves a creation with. -/
def Provided (b : Docket) : Obtained → Docket → Prop
  | .material _, b' => b' = { b with delivered := true }
  | _, b' => b' = b

theorem issueCreated_keeps (value : Certificate) {jobType : JobType}
    (create : kindOf jobType = .create)
    {engine : Certificate → Operation Obtained}
    (provides : ∀ stored b, Keeps (engine stored) b (Provided b))
    (detail : List (String × Detail)) (actor clientIP : String) :
    Keeps (issueCreated value jobType engine detail actor clientIP) .new fun _ => Closed := by
  refine keeps_unnoted trivial fun stored => ?_
  cases stored with
  | error err => exact Or.inr rfl
  | ok stored =>
    refine start_keeps rfl rfl (fun err => keeps_unnoted trivial fun _ => Or.inr rfl) ?_
    intro job b working
    rw [create] at working
    refine (provides stored b).bind fun obtained b' provided => ?_
    cases obtained with
    | panicked =>
      cases provided
      exact Or.inr working.free
    | failed exit err =>
      cases provided
      exact failRenewal_keeps working exit [] err actor clientIP
    | material material =>
      cases provided
      have working := working.delivered
      refine keeps_unnoted trivial fun now => ?_
      split
      · exact Or.inr working.free
      · refine (publisher_keeps stored.id _ _).bind ?_
        rintro published _ rfl
        cases published with
        | error err =>
          -- The job has failed, and no event is written.
          refine finish_keeps working (by decide) fun _ b' owing silent => ?_
          refine keeps_unnoted trivial fun _ => Or.inl ?_
          rw [silent, working.silences rfl, Bool.or_true]
        | ok _ =>
          refine keeps_unnoted trivial fun marked => ?_
          cases marked with
          | error err => exact Or.inr working.free
          | ok _ => exact succeed_keeps working _ _ _ _ _

theorem createACME_keeps (request : CreateACMERequest) (actor clientIP : String) :
    Keeps (createACME s request actor clientIP) .new fun _ => Closed := by
  unfold createACME
  split
  · exact Or.inr rfl
  split
  · exact Or.inr rfl
  split
  · exact Or.inr rfl
  split
  · exact Or.inr rfl
  have values : Keeps (challengeValues s request.challengeType request.dnsCredentialID) .new
      fun _ b => b = .new := by
    unfold challengeValues
    split
    · split
      · exact rfl
      · exact keeps_unnoted trivial fun _ => rfl
    · split <;> exact rfl
  refine values.bind ?_
  rintro resolved _ rfl
  cases resolved with
  | error err => exact Or.inr rfl
  | ok values =>
    refine issueCreated_keeps _ rfl (fun stored b => ?_) _ actor clientIP
    exact issueACME_keeps (fun _ => rfl) rfl fun _ => rfl

theorem createSelfSigned_keeps (request : CreateSelfSignedRequest) (actor clientIP : String) :
    Keeps (createSelfSigned s request actor clientIP) .new fun _ => Closed := by
  unfold createSelfSigned
  split
  · exact Or.inr rfl
  split
  · exact Or.inr rfl
  split
  · exact Or.inr rfl
  split
  · exact Or.inr rfl
  refine issueCreated_keeps _ rfl (fun stored b => ?_) _ actor clientIP
  split
  · exact issueSelfSigned_keeps (fun _ => rfl) rfl fun _ => rfl
  · exact rfl

theorem work_keeps (work : Work) :
    Keeps (ServiceProtocol.programOf s work.request) .new fun _ => Closed := by
  cases work with
  | createSelfSigned request actor clientIP =>
    exact (createSelfSigned_keeps request actor clientIP).bind fun _ _ closed => closed
  | createACME request actor clientIP =>
    exact (createACME_keeps request actor clientIP).bind fun _ _ closed => closed
  | issue id actor clientIP =>
    exact (issue_keeps id actor clientIP).bind fun _ _ closed => closed
  | renew id force actor clientIP =>
    exact (renew_keeps id force actor clientIP).bind fun _ _ closed => closed
  | revoke id actor clientIP =>
    exact (revoke_keeps id actor clientIP).bind fun _ _ closed => closed

end Operations

section Tables
variable {B : Backend} {db : Db}

/-- A store that never fails. -/
def Healthy (B : Backend) : Prop := ∀ n, B.fails n = none

theorem exec_healthy (healthy : Healthy B) (q : Query) :
    SqliteStore.exec B q db = ((act B q db).1, (act B q db).2.tick) := exec_through (healthy _)

/-- A job is rewritten by the call that ends it, and by a delete. -/
theorem exec_job {q : Query} {j : Id} {r : Run} (there : db.job j = some r)
    (open_ : ∀ status exit output message, q ≠ .finishJob j status exit output message)
    (kept : ∀ id event, q ≠ .deleteCertificateWithAudit id event) :
    (SqliteStore.exec B q db).2.job j = some r := by
  unfold SqliteStore.exec
  split
  · exact there
  change (act B q db).2.job j = some r
  cases q with
  | createJob run =>
    simp only [act]
    split
    · rw [Db.job_insertJob, if_neg (Nat.ne_of_lt (KeyedTables.Table.lt_next_of_find? there))]
      exact there
    · exact there
  | finishJob key status exit output message =>
    refine (Db.job_updateJob db key j (finishRun _ status exit output message) fun _ => rfl).trans ?_
    rw [if_neg]
    · exact there
    · rintro rfl
      exact open_ _ _ _ _ rfl
  | deleteCertificateWithAudit id event => exact absurd rfl (kept id event)
  | _ => simp only [act]; repeat' first | exact there | split

/-- The calls that write to the jobs or to the events. -/
def Writes : Query → Prop
  | .createJob _ | .finishJob _ _ _ _ _ | .createAuditEvent _
  | .deleteCertificateWithAudit _ _ => True
  | _ => False

theorem exec_counts {q : Query} (reads : ¬ Writes q) (i : Entry) :
    jobsEnded (SqliteStore.exec B q db).2 i = jobsEnded db i ∧
      eventsReported (SqliteStore.exec B q db).2 i = eventsReported db i := by
  unfold SqliteStore.exec
  split
  · exact ⟨rfl, rfl⟩
  change jobsEnded (act B q db).2 i = _ ∧ eventsReported (act B q db).2 i = _
  cases q with
  | createJob | finishJob | createAuditEvent | deleteCertificateWithAudit =>
    exact absurd trivial reads
  | certificates => exact ⟨rfl, rfl⟩
  | _ => simp only [act]; repeat' first | exact ⟨rfl, rfl⟩ | split

/-- A job that is recorded as running has not ended. -/
theorem createJob_counts {run : Run} (running : run.status = .running) (i : Entry) :
    jobsEnded (SqliteStore.exec B (.createJob run) db).2 i = jobsEnded db i ∧
      eventsReported (SqliteStore.exec B (.createJob run) db).2 i = eventsReported db i := by
  unfold SqliteStore.exec
  split
  · exact ⟨rfl, rfl⟩
  simp only [act]
  split
  · refine ⟨?_, rfl⟩
    have unended : ∀ id, ended i { newRun (B.clock db.calls) run db.jobs.next with id := id } =
        false := by
      intro id
      have other : run.status ≠ i.status := by
        rw [running]
        unfold Entry.status
        split <;> decide
      simp [ended, newRun, other]
    change (db.jobs.insert _ _).rows.countP (ended i) = _
    rw [KeyedTables.Table.countP_insert, unended]
    rfl
  · exact ⟨rfl, rfl⟩

/-- A job that was running is ended. -/
theorem finishJob_counts (healthy : Healthy B) {run : Run} {status : JobStatus} {exit : Int}
    {output message : Bytes} (there : db.job run.id = some run) (running : run.status = .running)
    (i : Entry) :
    jobsEnded (SqliteStore.exec B (.finishJob run.id status exit output message) db).2 i =
        jobsEnded db i + (if ended i { run with status := status } then 1 else 0) ∧
      eventsReported (SqliteStore.exec B (.finishJob run.id status exit output message) db).2 i =
        eventsReported db i := by
  rw [exec_healthy healthy]
  refine ⟨?_, rfl⟩
  have counted := KeyedTables.Table.countP_modify (ended i) there
    (finishRun (B.clock db.calls) status exit output message) fun _ => rfl
  have unended : ended i run = false := by
    have other : run.status ≠ i.status := by
      rw [running]
      unfold Entry.status
      split <;> decide
    simp [ended, other]
  rw [unended] at counted
  exact counted

/-- An event about a certificate that is there is stored. -/
theorem createAuditEvent_counts (healthy : Healthy B) {event : Event} {id : Id} {row : Certificate}
    (about : event.certificateID = some id) (there : db.row id = some row) (i : Entry) :
    jobsEnded (SqliteStore.exec B (.createAuditEvent event) db).2 i = jobsEnded db i ∧
      eventsReported (SqliteStore.exec B (.createAuditEvent event) db).2 i =
        eventsReported db i + if reported i event then 1 else 0 := by
  have known : referenced db event.certificateID = true := by
    rw [about, referenced, there]
    rfl
  rw [exec_healthy healthy]
  simp only [act, if_pos known]
  refine ⟨rfl, ?_⟩
  change (db.audits.insert _ _).rows.countP (reported i) = _
  rw [KeyedTables.Table.countP_insert]
  rfl

end Tables

section Pool
variable {env : Environment} {s : Service}

/-- The operations as threads, each with its docket. -/
def books (env : Environment) (s : Service) : System Eff Ans World Docket (Outcome Unit) where
  exec := exec env
  enabled _ e w := enabled env e w
  note := note
  spawn _ _ := none
  starts th := ∃ work : Work, th = ⟨ServiceProtocol.programOf s work.request, .new⟩
  restart w := w

abbrev Configuration := Config Eff Ans World Docket (Outcome Unit)

/-- A creation that has its material is about to end its job as failed. -/
def Silencing (b : Docket) : Eff → Prop
  | .store (.finishJob _ status _ _ _) => b.silences status = true
  | _ => False

/-- No publication of a creation fails, and the process is not killed. -/
def published : Discipline Eff Ans World Docket (Outcome Unit) where
  start _ _ := True
  call c t e := ∀ k b, c.threads t = some ⟨.call e k, b⟩ → ¬ Silencing b e
  crash _ := False

/-- Where an operation in flight stands. -/
structure Standing (b : Docket) (w : World) : Prop where
  job : ∀ run, b.job = some run → w.db.job run.id = some run ∧ run.status = .running ∧
    ∃ id row, run.certificateID = some id ∧ w.db.row id = some row
  owed : ∀ run, b.owed = some run → ∃ id row, run.certificateID = some id ∧ w.db.row id = some row
  spoken : b.silent = false

theorem Standing.new (w : World) : Standing .new w :=
  ⟨(fun _ h => nomatch h), (fun _ h => nomatch h), rfl⟩

/-- A certificate whose record is not deleted is there after any call. -/
theorem present_kept {thread : Nat} {e : Eff} {w : World} {r : Run}
    (kept : ∀ id event, e ≠ .store (.deleteCertificateWithAudit id event))
    (there : ∃ id row, r.certificateID = some id ∧ w.db.row id = some row) :
    ∃ id row, r.certificateID = some id ∧ (exec env thread e w).2.db.row id = some row := by
  obtain ⟨id, row, about, present⟩ := there
  have still : ∃ row', (exec env thread e w).2.db.row id = some row' ∧
      row'.outputDirectory = row.outputDirectory :=
    ServiceSteps.row_kept present fun event same => kept id event same
  obtain ⟨row', present', -⟩ := still
  exact ⟨id, row', about, present'⟩

/-- What does not end the job leaves the operation where it stands. -/
theorem Standing.frame {b : Docket} {thread : Nat} {e : Eff} {w : World} (h : Standing b w)
    (kept : ∀ id event, e ≠ .store (.deleteCertificateWithAudit id event))
    (open_ : ∀ run status exit output message, b.job = some run →
      e ≠ .store (.finishJob run.id status exit output message)) :
    Standing b (exec env thread e w).2 := by
  refine ⟨fun run mine => ?_, fun run owed => present_kept kept (h.owed run owed), h.spoken⟩
  obtain ⟨there, running, present⟩ := h.job run mine
  refine ⟨?_, running, present_kept kept present⟩
  by_cases stored : ∃ q, e = .store q
  · obtain ⟨q, rfl⟩ := stored
    have after : (SqliteStore.exec env.backend q w.db).2.job run.id = some run := by
      apply exec_job there
      · rintro status exit output message rfl
        exact open_ run status exit output message mine rfl
      · rintro id event rfl
        exact kept id event rfl
    exact after
  · rw [ServiceSteps.exec_db fun q same => stored ⟨q, same⟩]
    exact there

/-- An operation knows where it stands after its own call. -/
theorem Standing.own {b : Docket} {thread : Nat} {e : Eff} {w : World} (h : Standing b w)
    (allowed : allows b e) (loud : ¬ Silencing b e) :
    Standing (note b e (exec env thread e w).1) (exec env thread e w).2 := by
  have framed : (∀ id event, e ≠ .store (.deleteCertificateWithAudit id event)) →
      (∀ id status exit output message, e ≠ .store (.finishJob id status exit output message)) →
      Standing b (exec env thread e w).2 :=
    fun kept open_ => h.frame kept fun run status exit output message _ => open_ _ _ _ _ _
  cases e with
  | store q =>
    cases q with
    | createJob run =>
      have still := framed (fun _ _ => (fun h => by cases h)) fun _ _ _ _ _ => (fun h => by cases h)
      obtain ⟨-, free, running, about⟩ := allowed
      change Standing (note b (.store (.createJob run))
        (SqliteStore.exec env.backend (.createJob run) w.db).1) _
      cases answered : (SqliteStore.exec env.backend (.createJob run) w.db).1 with
      | error err => exact still
      | ok job =>
        obtain ⟨certificate, named⟩ := Option.ne_none_iff_exists'.mp about
        obtain ⟨row, present⟩ := createJob_ok named answered
        obtain ⟨answer, state⟩ := exec_ok answered
        have known : referenced w.db run.certificateID = true := by
          rw [named, referenced, present]
          rfl
        simp only [act, if_pos known] at answer state
        cases answer
        refine ⟨fun job mine => ?_, fun run owed => ?_, still.spoken⟩
        · cases mine
          refine ⟨?_, running, certificate, row, named, ?_⟩
          · change (SqliteStore.exec env.backend (.createJob run) w.db).2.job w.db.jobs.next = _
            rw [state, Db.job_tick, Db.job_insertJob, if_pos rfl]
            rfl
          · change (SqliteStore.exec env.backend (.createJob run) w.db).2.row certificate = _
            rw [state]
            exact present
        · rw [note, free] at owed
          cases owed
    | finishJob id status exit output message =>
      obtain ⟨-, ⟨run, mine, -⟩, -⟩ := allowed
      obtain ⟨-, -, present⟩ := h.job run mine
      refine ⟨(fun _ h => by cases h), fun run' owed => ?_, ?_⟩
      · simp only [note, mine, Option.map_some, Option.some.injEq] at owed
        subst owed
        exact present_kept (fun _ _ => (fun h => by cases h)) present
      · have quiet : b.silences status = false := Bool.eq_false_iff.mpr loud
        simp only [note, h.spoken, quiet, Bool.or_self]
    | createAuditEvent event =>
      have still := framed (fun _ _ => (fun h => by cases h)) fun _ _ _ _ _ => (fun h => by cases h)
      exact ⟨still.job, (fun _ h => by cases h), still.spoken⟩
    | deleteCertificateWithAudit id event => exact allowed.elim
    | _ => exact framed (fun _ _ => (fun h => by cases h)) fun _ _ _ _ _ => (fun h => by cases h)
  | issueSelfSigned certificate order =>
    have still := framed (fun _ _ => (fun h => by cases h)) fun _ _ _ _ _ => (fun h => by cases h)
    generalize (exec env thread (.issueSelfSigned certificate order) w).1 = r
    rcases r with err | _ | result <;> exact ⟨still.job, still.owed, still.spoken⟩
  | issueACME certificate order =>
    have still := framed (fun _ _ => (fun h => by cases h)) fun _ _ _ _ _ => (fun h => by cases h)
    generalize (exec env thread (.issueACME certificate order) w).1 = r
    rcases r with err | _ | result <;> exact ⟨still.job, still.owed, still.spoken⟩
  | _ => exact framed (fun _ _ => (fun h => by cases h)) fun _ _ _ _ _ => (fun h => by cases h)

/-- The number of the job that an operation works on. -/
def Has (b : Docket) (j : Id) : Prop := ∃ run, b.job = some run ∧ run.id = j

variable (env s) in
abbrev Keeping : Assertion Eff Ans World Docket (Outcome Unit) :=
  conforming (books env s) Honest allows fun _ => Closed

theorem keeping_stable {D : Discipline Eff Ans World Docket (Outcome Unit)} :
    (Keeping env s).Stable (books env s) D fun _ => True := by
  refine conforming_stable (fun t e w => exec_honest env t e w) ?_ (fun _ _ _ h => nomatch h)
  rintro th ⟨work, rfl⟩
  exact work_keeps work

def standing : Assertion Eff Ans World Docket (Outcome Unit) where
  world _ := True
  thread _ th w := Standing th.seen w

variable (env s) in
/-- What holds of every configuration on the way. -/
structure Known (c : Configuration) : Prop where
  keeping : (Keeping env s).Holds c
  standing : standing.Holds c
  alone : Exclusive Has c

theorem standing_stable :
    standing.Stable (books env s) published fun c => (Keeping env s).Holds c ∧ Exclusive Has c where
  own c t e k b known holds running _ ok := by
    have allowed : allows b e := allowed_of_conforming known.1 running
    exact ⟨trivial, (holds.thread t _ running).own allowed (ok k b running)⟩
  other c t e k b u th known holds running _ _ away there := by
    have allowed : allows b e := allowed_of_conforming known.1 running
    refine (holds.thread u th there).frame ?_ ?_
    · rintro id event rfl
      exact allowed
    · rintro run status exit output message mine rfl
      obtain ⟨-, ⟨run', theirs, same⟩, -⟩ := allowed
      exact away (known.2 t u _ th _ running there ⟨run', theirs, same⟩ ⟨run, mine, rfl⟩).symm
  start c t th _ _ _ starts _ := by
    obtain ⟨work, rfl⟩ := starts
    exact .new _
  spawn c t e k b u child _ _ _ h := nomatch h
  crash _ _ _ ok := ok.elim

/-- A new job has a new number. -/
theorem has_kept : Exclusive.Kept Has (books env s) published
    fun c => (Keeping env s).Holds c ∧ standing.Holds c where
  call c t e k b j known running _ got := by
    cases e with
    | store q =>
      cases q with
      | createJob run =>
        change Has (note b (.store (.createJob run))
          (SqliteStore.exec env.backend (.createJob run) c.world.db).1) j at got
        cases answered : (SqliteStore.exec env.backend (.createJob run) c.world.db).1 with
        | error err =>
          rw [answered] at got
          exact Or.inl got
        | ok job =>
          rw [answered] at got
          obtain ⟨_, ⟨⟩, rfl⟩ := got
          refine Or.inr fun u th there => ?_
          rintro ⟨run', mine, same⟩
          obtain ⟨present, -⟩ := (known.2.thread u th there).job run' mine
          have below := KeyedTables.Table.lt_next_of_find? present
          have answer := (exec_ok answered).1
          simp only [act] at answer
          split at answer
          · cases answer
            exact Nat.ne_of_lt below same
          · cases answer
      | finishJob id status exit output message =>
        obtain ⟨_, ⟨⟩, -⟩ := got
      | _ => exact Or.inl got
    | issueSelfSigned certificate order =>
      change Has (note b (.issueSelfSigned certificate order)
        (exec env t (.issueSelfSigned certificate order) c.world).1) j at got
      generalize (exec env t (.issueSelfSigned certificate order) c.world).1 = r at got
      rcases r with err | _ | result <;> exact Or.inl got
    | issueACME certificate order =>
      change Has (note b (.issueACME certificate order)
        (exec env t (.issueACME certificate order) c.world).1) j at got
      generalize (exec env t (.issueACME certificate order) c.world).1 = r at got
      rcases r with err | _ | result <;> exact Or.inl got
    | _ => exact Or.inl got
  start th j starts := by
    obtain ⟨work, rfl⟩ := starts
    rintro ⟨_, ⟨⟩, -⟩
  spawn t e th j h := nomatch h

theorem Known.step {c c' : Configuration} (h : Known env s c)
    (hs : Step (books env s) published c c') : Known env s c' where
  keeping := keeping_stable.step trivial h.keeping hs
  standing := standing_stable.step ⟨h.keeping, h.alone⟩ h.standing hs
  alone := has_kept.step ⟨h.keeping, h.standing⟩ h.alone hs

/-- The events against the jobs of one entry, and the event that an operation
has still to write. -/
def ledger (i : Entry) : Ledger World Docket where
  settled w := (eventsReported w.db i : Int) - jobsEnded w.db i
  owes b := if b.owed.any (ended i) then 1 else 0

theorem ledger_call (healthy : Healthy env.backend) {thread : Nat} {b : Docket} {e : Eff}
    {w : World}
    (h : Standing b w) (allowed : allows b e) (i : Entry) :
    (ledger i).settled (exec env thread e w).2 + (ledger i).owes (note b e (exec env thread e w).1) =
      (ledger i).settled w + (ledger i).owes b := by
  -- Most calls leave the tables and the docket's debt alone.
  have quiet : ∀ b', b'.owed = b.owed →
      (jobsEnded (exec env thread e w).2.db i = jobsEnded w.db i ∧
        eventsReported (exec env thread e w).2.db i = eventsReported w.db i) →
      (ledger i).settled (exec env thread e w).2 + (ledger i).owes b' =
        (ledger i).settled w + (ledger i).owes b := by
    rintro b' owed ⟨jobs, events⟩
    simp only [ledger, jobs, events, owed]
  cases e with
  | store q =>
    cases q with
    | createJob run =>
      obtain ⟨-, -, running, -⟩ := allowed
      refine quiet _ ?_ (createJob_counts running i)
      generalize (exec env thread (.store (.createJob run)) w).1 = r
      cases r <;> rfl
    | finishJob id status exit output message =>
      obtain ⟨free, ⟨run, mine, rfl⟩, -⟩ := allowed
      obtain ⟨there, running, -⟩ := h.job run mine
      have counts : jobsEnded (exec env thread (.store (.finishJob run.id status exit output message))
            w).2.db i = jobsEnded w.db i + (if ended i { run with status := status } then 1 else 0) ∧
          eventsReported (exec env thread (.store (.finishJob run.id status exit output message))
            w).2.db i = eventsReported w.db i := finishJob_counts healthy there running i
      obtain ⟨jobs, events⟩ := counts
      simp only [ledger, jobs, events, note, mine, free, Option.map_some, Option.any_some,
        Option.any_none, Bool.false_eq_true, if_false]
      split <;> omega
    | createAuditEvent event =>
      obtain ⟨run, owed, about, same⟩ := allowed
      obtain ⟨id, row, named, present⟩ := h.owed run owed
      have counts : jobsEnded (exec env thread (.store (.createAuditEvent event)) w).2.db i =
            jobsEnded w.db i ∧
          eventsReported (exec env thread (.store (.createAuditEvent event)) w).2.db i =
            eventsReported w.db i + if reported i event then 1 else 0 :=
        createAuditEvent_counts healthy (about.trans named) present i
      obtain ⟨jobs, events⟩ := counts
      simp only [ledger, jobs, events, note, owed, same i, Option.any_some, Option.any_none,
        Bool.false_eq_true, if_false]
      split <;> omega
    | deleteCertificateWithAudit id event => exact allowed.elim
    | _ =>
      refine quiet _ rfl (exec_counts ?_ i)
      exact fun writes => writes
  | issueSelfSigned certificate order =>
    refine quiet _ ?_ ⟨rfl, rfl⟩
    generalize (exec env thread (.issueSelfSigned certificate order) w).1 = r
    rcases r with err | _ | result <;> rfl
  | issueACME certificate order =>
    refine quiet _ ?_ ⟨rfl, rfl⟩
    generalize (exec env thread (.issueACME certificate order) w).1 = r
    rcases r with err | _ | result <;> rfl
  | _ =>
    refine quiet _ rfl ?_
    rw [ServiceSteps.exec_db (by rintro q ⟨⟩)]
    exact ⟨rfl, rfl⟩

theorem ledger_kept (healthy : Healthy env.backend) (i : Entry) :
    (ledger i).Kept (books env s) published (Known env s) where
  call c t e k b known running _ :=
    ledger_call healthy (known.standing.thread t _ running)
      (allowed_of_conforming known.keeping running) i
  start th starts := by
    obtain ⟨work, rfl⟩ := starts
    rfl
  spawn t e th h := nomatch h
  finish c t a b known running := by
    have closed : Closed b := known.keeping.thread t _ running
    have spoken := (known.standing.thread t _ running).spoken
    rcases closed with silent | paid
    · have both := silent.symm.trans spoken
      cases both
    · simp only [ledger, paid, Option.any_none]
      rfl
  crash c ok := ok

/-- In every run in which no publication of a creation fails, there are never
more events than jobs that have ended, for each certificate, kind of operation
and result, and as many of them when all operations have ended. -/
theorem finished_jobs_audited {start c : Configuration} (healthy : Healthy env.backend)
    (idle : ∀ t, start.threads t = none) (run : Reach (books env s) published start c) (i : Entry) :
    eventsReported c.world.db i + jobsEnded start.world.db i ≤
        jobsEnded c.world.db i + eventsReported start.world.db i ∧
      (c.Quiet → eventsReported c.world.db i + jobsEnded start.world.db i =
        jobsEnded c.world.db i + eventsReported start.world.db i) := by
  have first : Known env s start := by
    refine ⟨⟨trivial, fun t th there => ?_⟩, ⟨trivial, fun t th there => ?_⟩, fun t u th _ _ there => ?_⟩
    all_goals
      rw [idle t] at there
      cases there
  have even : (ledger i).Even ((ledger i).settled start.world) start := by
    refine ⟨0, fun t _ => idle t, ?_⟩
    simp [Config.total]
  obtain ⟨known, balanced⟩ := Reach.invariant _ _
    (I := fun c => Known env s c ∧ (ledger i).Even ((ledger i).settled start.world) c)
    (fun c c' h hs => ⟨h.1.step hs, (ledger_kept healthy i).step h.1 h.2 hs⟩) run ⟨first, even⟩
  have ahead := balanced.settled_le fun b => by
    simp only [ledger]
    split <;> decide
  refine ⟨?_, fun quiet => ?_⟩
  · simp only [ledger] at ahead
    omega
  · have level := (ledger_kept healthy i).settled_of_quiet known balanced quiet
    simp only [ledger] at level
    omega

end Pool

def creation : Configuration :=
  .crowd ServicePool.emptyWorld [⟨ServiceProtocol.programOf ServicePool.sampleService
    (Work.createSelfSigned ServicePool.monthRequest "admin" "").request, .new⟩]

theorem creation_begun (env : Environment) {D : Discipline Eff Ans World Docket (Outcome Unit)}
    (ok : ∀ c th, D.start c th) :
    Reach (books env ServicePool.sampleService) D (.crowd ServicePool.emptyWorld []) creation := by
  refine crowd_reach ok _ _ fun th there => ?_
  rw [List.mem_singleton.mp there]
  exact ⟨_, rfl⟩

/-- What `published` asks of a call, as far as the sample needs it. -/
def goingWell (_ : Configuration) (_ : Nat) (e : Eff) : Bool :=
  match e with
  | .store (.finishJob _ status _ _ _) => decide (status ≠ .failed)
  | _ => true

theorem goingWell_published {c : Configuration} {t : Nat} {e : Eff} (h : goingWell c t e = true) :
    published.call c t e := by
  intro k b _ silencing
  cases e with
  | store q =>
    cases q with
    | finishJob id status exit output message =>
      have other : status ≠ .failed := of_decide_eq_true h
      simp [Silencing, Docket.silences, other] at silencing
    | _ => exact silencing
  | _ => exact silencing

def created : Entry := ⟨0, .create, true⟩

theorem finished_jobs_audited_creation : ∃ c : Configuration, c.Quiet ∧
    jobsEnded c.world.db created = 1 ∧ eventsReported c.world.db created = 1 := by
  have played : ((books ServicePool.monthEnvironment ServicePool.sampleService).play goingWell
      (List.replicate 26 0) creation).map (fun c => (c.resting 1, jobsEnded c.world.db created)) =
      some (true, 1) := by
    decide +kernel
  obtain ⟨c, run, seen⟩ := Option.map_eq_some_iff.mp played
  have quiet : c.Quiet := quiet_of_resting (play_bounded (crowd_free _ [_]) run) (congrArg Prod.fst seen)
  have jobs : jobsEnded c.world.db created = 1 := congrArg Prod.snd seen
  have begun := creation_begun ServicePool.monthEnvironment (D := published) fun _ _ => trivial
  have reached := begun.trans (play_reach (D := published) (fun _ _ _ => goingWell_published) run)
  have level := (finished_jobs_audited (fun _ => rfl) (fun _ => rfl) reached created).2 quiet
  refine ⟨c, quiet, jobs, ?_⟩
  rw [jobs] at level
  exact level

/-- A disk that fails. -/
def brokenEnvironment : Environment :=
  { ServicePool.monthEnvironment with host := { FileSystem.calmHost with fails := fun _ => true } }

def failedCreation : Entry := ⟨0, .create, false⟩

/-- The publication of a creation fails: its job ends as failed, and no event is
written. -/
theorem failed_publication_unaudited : Healthy brokenEnvironment.backend ∧ ∃ c : Configuration,
    Reach (books brokenEnvironment ServicePool.sampleService) .uninterrupted
      (.crowd ServicePool.emptyWorld []) c ∧ c.Quiet ∧
      jobsEnded c.world.db failedCreation = 1 ∧ eventsReported c.world.db failedCreation = 0 := by
  have played : ((books brokenEnvironment ServicePool.sampleService).play (fun _ _ _ => true)
      (List.replicate 7 0) creation).map (fun c => (c.resting 1, jobsEnded c.world.db failedCreation,
        eventsReported c.world.db failedCreation)) = some (true, 1, 0) := by
    decide +kernel
  obtain ⟨c, run, seen⟩ := Option.map_eq_some_iff.mp played
  simp only [Prod.mk.injEq] at seen
  obtain ⟨resting, jobs, events⟩ := seen
  have begun := creation_begun brokenEnvironment (D := .uninterrupted) fun _ _ => trivial
  have reached := begun.trans (play_reach (D := .uninterrupted) (fun _ _ _ _ => trivial) run)
  exact ⟨fun _ => rfl, c, reached, quiet_of_resting (play_bounded (crowd_free _ [_]) run) resting,
    jobs, events⟩

end AuditedJobs
