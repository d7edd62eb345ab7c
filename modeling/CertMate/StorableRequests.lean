import CertMate.FirstIssue
import CertMate.IssuableRequests
import CertMate.ServiceCalls

/-!
# The self-signed requests the table takes

`CreateSelfSigned` of `internal/certificate/service.go` wants the days before the expiry
below the days of validity, which go up to 3650; the table of `00001_initial.sql` takes
365 days at most.
-/
namespace StorableRequests
open CertificateModel DomainValidation CallTrees ServiceWorld CertificateService ServiceSteps
  ServiceCalls IssuableRequests
open SqliteStore hiding exec

section Creation
variable {env : Environment} {thread : Nat} {s : Service} {w : World}

/-- The answer to the insertion when the database works and the directory is free. -/
theorem createCertificate_answer {value : Certificate}
    (through : env.backend.fails w.db.calls = none)
    (free : ∀ c ∈ w.db.certificates.rows, c.outputDirectory ≠ value.outputDirectory) :
    (SqliteStore.exec env.backend (.createCertificate value) w.db).1 =
      match violation w.db value with
      | some text => .error (constraintError "创建证书记录" text)
      | none => .ok (createdValue (env.backend.clock w.db.calls) value w.db.certificates.next) := by
  rw [exec_through through]
  cases broken : violation w.db value with
  | some text => simp only [act, broken]
  | none => simp only [act, broken, dif_pos free]

/-- Without a delete a record stays. -/
theorem plain_keeps {α : Type} {p : Operation α} (plain : Behaves (fun _ => False) p) {id : Id}
    {w : World} (there : ∃ row, w.db.row id = some row) :
    ∃ row, (run (exec env thread) p w).2.db.row id = some row := by
  refine Only.run_invariant (I := fun w => ∃ row, w.db.row id = some row) (exec env thread)
    (fun _ _ => trivial) ?_ plain there
  rintro e w admitted ⟨c, there⟩
  have spared : ∀ event, e ≠ .store (.deleteCertificateWithAudit id event) := by
    rintro event rfl
    exact admitted
  obtain ⟨c', kept, -⟩ := row_kept there spared
  exact ⟨c', kept⟩

section Issue
variable {value : Certificate} {jobType : JobType} {engine : Certificate → Operation Obtained}
  {detail : List (String × Detail)} {actor clientIP : String}

/-- A record that the table refuses: the creation ends with the error of the database. -/
theorem issueCreated_refused (through : env.backend.fails w.db.calls = none) {text : String}
    (broken : violation w.db value = some text) :
    run (exec env thread) (issueCreated value jobType engine detail actor clientIP) w =
      (.error (constraintError "创建证书记录" text), { w with db := w.db.tick }) := by
  have refused : SqliteStore.exec env.backend (.createCertificate value) w.db =
      (.error (constraintError "创建证书记录" text), w.db.tick) := by
    rw [exec_through through]
    simp only [act, broken]
  have answered : exec env thread (.store (.createCertificate value)) w =
      (.error (constraintError "创建证书记录" text), { w with db := w.db.tick }) := by
    rw [exec, execStore, refused]
  unfold issueCreated
  rw [Prog.perform_bind, run_call, answered]
  rfl

/-- A record that the table takes is there at the end of its creation. -/
theorem issueCreated_stored (plain : ∀ c, Behaves (fun _ => False) (engine c))
    (through : env.backend.fails w.db.calls = none)
    (free : ∀ c ∈ w.db.certificates.rows, c.outputDirectory ≠ value.outputDirectory)
    (fits : violation w.db value = none) :
    ∃ row, (run (exec env thread) (issueCreated value jobType engine detail actor clientIP)
      w).2.db.row w.db.certificates.next = some row := by
  obtain ⟨-, later⟩ := issueCreated_plain value jobType plain detail actor clientIP
  have answered := @createCertificate_answer env w value through free
  rw [fits] at answered
  obtain ⟨-, there, -⟩ := createCertificate_ok answered
  exact plain_keeps (later _ trivial) ⟨_, there⟩

end Issue

/-- The record of a request. -/
def selfSignedRecord (request : CreateSelfSignedRequest) (name primary : String)
    (domains : List String) (directory : String) : Certificate :=
  { blankCertificate with
    name := name
    mode := .selfSigned
    primaryDomain := primary
    domains := domains
    keyType := request.keyType
    status := .issuing
    outputDirectory := directory
    autoRenewEnabled := request.autoRenewEnabled
    renewBeforeDays := request.renewBeforeDays
    selfSignedValidDays := request.validDays
    createRenewedMarker := request.createRenewedMarker }

/-- What `CreateSelfSigned` checks of a request, and the record it makes of it. -/
structure Accepted (request : CreateSelfSignedRequest) (value : Certificate) : Prop where
  normal : ∃ name primary domains directory,
    normalizeRequest request.name request.primaryDomain request.sans request.outputDirectory
      (fun _ _ => .ok ()) = .ok (name, primary, domains, directory) ∧
    value = selfSignedRecord request name primary domains directory
  days : 1 ≤ request.validDays ∧ request.validDays ≤ 3650
  before : 1 ≤ request.renewBeforeDays ∧ request.renewBeforeDays < request.validDays
  key : supportedKeyType request.keyType = true

theorem violation_accepted {request : CreateSelfSignedRequest} {value : Certificate}
    (accepted : Accepted request value) (db : Db) :
    violation db value =
      if 365 < request.renewBeforeDays then
        some "CHECK constraint failed: renew_before_days BETWEEN 1 AND 365"
      else none := by
  obtain ⟨name, primary, domains, directory, -, rfl⟩ := accepted.normal
  obtain ⟨positive, -⟩ := accepted.before
  have low : ¬ request.renewBeforeDays < 1 := by omega
  simp [violation, selfSignedRecord, blankCertificate, low]

-- A goal about a program is otherwise reduced as far as the texts in it go.
attribute [local irreducible] trimSpace normalizeDomains

theorem createSelfSigned_accepted {request : CreateSelfSignedRequest} {value : Certificate}
    (accepted : Accepted request value) (actor clientIP : String) :
    ∃ engine detail, (∀ c, Behaves (fun _ => False) (engine c)) ∧
      createSelfSigned s request actor clientIP =
        issueCreated value .selfSignedIssue engine detail actor clientIP := by
  obtain ⟨name, primary, domains, directory, normal, rfl⟩ := accepted.normal
  have days : ¬ (request.validDays < 1 ∨ 3650 < request.validDays) := by
    have days := accepted.days
    omega
  have before : ¬ (request.renewBeforeDays < 1 ∨ request.validDays ≤ request.renewBeforeDays) := by
    have before := accepted.before
    omega
  have key : ¬ (!supportedKeyType request.keyType) = true := by simp [accepted.key]
  unfold createSelfSigned
  rw [normal]
  dsimp only
  rw [if_neg days, if_neg before, if_neg key]
  refine ⟨_, _, fun c => ?_, rfl⟩
  split
  · exact plain_call trivial fun _ => trivial
  · exact trivial

end Creation

/-- The record passes every constraint of the table and is in it at the end. -/
def Storable (env : Environment) (thread : Nat) (s : Service) (request : CreateSelfSignedRequest)
    (actor clientIP : String) (w : World) (value : Certificate) : Prop :=
  violation w.db value = none ∧
    ∃ row, (run (exec env thread) (createSelfSigned s request actor clientIP) w).2.db.row
      w.db.certificates.next = some row

/-- With 365 days at most before the expiry. Otherwise the database refuses the record. -/
theorem selfSigned_storable_iff (env : Environment) (thread : Nat) (s : Service)
    (request : CreateSelfSignedRequest) (actor clientIP : String) (w : World) {value : Certificate}
    (accepted : Accepted request value)
    (free : ∀ c ∈ w.db.certificates.rows, c.outputDirectory ≠ value.outputDirectory)
    (through : env.backend.fails w.db.calls = none) :
    (Storable env thread s request actor clientIP w value ↔ request.renewBeforeDays ≤ 365) ∧
      (365 < request.renewBeforeDays →
        run (exec env thread) (createSelfSigned s request actor clientIP) w =
          (.error (constraintError "创建证书记录"
              "CHECK constraint failed: renew_before_days BETWEEN 1 AND 365"),
            { w with db := w.db.tick })) := by
  have decided := violation_accepted accepted w.db
  obtain ⟨engine, detail, plain, same⟩ := @createSelfSigned_accepted s request value accepted
    actor clientIP
  unfold Storable
  rw [same, decided]
  by_cases far : 365 < request.renewBeforeDays
  · rw [if_pos far] at decided ⊢
    refine ⟨iff_of_false ?_ (by omega), fun _ => issueCreated_refused through decided⟩
    rintro ⟨⟨⟩, -⟩
  · rw [if_neg far] at decided ⊢
    refine ⟨iff_of_true ⟨rfl, ?_⟩ (by omega), fun other => absurd other far⟩
    exact issueCreated_stored plain through free decided

/-- Ten years, to be renewed more than a year before their end. -/
def decadeRequest : CreateSelfSignedRequest :=
  { ServicePool.monthRequest with validDays := 3650, renewBeforeDays := 400 }

def decadeRecord : Certificate :=
  selfSignedRecord decadeRequest "month" "example.org" ["example.org"] "example-org"

theorem decade_accepted : Accepted decadeRequest decadeRecord :=
  ⟨⟨_, _, _, _, FirstIssue.month_normal, rfl⟩, by decide, by decide, rfl⟩

theorem selfSigned_storable_iff_decade :
    ¬ Storable ServicePool.sampleEnvironment 0 ServicePool.sampleService decadeRequest "admin" ""
      ServicePool.emptyWorld decadeRecord := by
  have decided := (selfSigned_storable_iff ServicePool.sampleEnvironment 0
    ServicePool.sampleService decadeRequest "admin" "" ServicePool.emptyWorld decade_accepted
    (fun _ there => nomatch there) rfl).1
  intro stored
  exact absurd (decided.mp stored) (by decide)

/-- The request passes every check and its directory is free, and the table refuses it. -/
theorem decade_not_storable : Accepted decadeRequest decadeRecord ∧
    (∀ c ∈ ServicePool.emptyWorld.db.certificates.rows,
      c.outputDirectory ≠ decadeRecord.outputDirectory) ∧
    ¬ Storable ServicePool.sampleEnvironment 0 ServicePool.sampleService decadeRequest "admin" ""
      ServicePool.emptyWorld decadeRecord := by
  refine ⟨decade_accepted, (fun _ there => nomatch there), fun stored => ?_⟩
  exact absurd stored.1 (by decide)

end StorableRequests
