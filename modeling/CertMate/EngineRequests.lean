import CertMate.ServicePool

/-!
# What the requests to acme.sh are built from

An operation asks `acme.sh` only about a certificate that it has read or inserted, and
copies the domains and the key type from there. What it inserts has normalized domains.
-/
namespace EngineRequests
open CertificateModel CallTrees SqliteStore ServiceWorld CertificateFiles CertificateService
  ServiceProtocol
open DomainValidation (trimSpace normalizeDomains)

/-- A call that inserts no certificate and asks nothing of `acme.sh`. -/
def Other : Eff → Prop
  | .store (.createCertificate _)
  | .issueACME _ _ | .renewACME _ _ | .revokeACME _ _ => False
  | _ => True

/-- What an operation may be told of certificates and ask of `acme.sh` about them. -/
structure Sources (A : (e : Eff) → Ans e → Prop) (C : Eff → Prop) (F : Certificate → Prop) :
    Prop where
  read : ∀ id value, A (.store (.certificate id)) (.ok value) → F value
  insert : ∀ value : Certificate, (∃ primaryDomain sans,
    normalizeDomains primaryDomain sans = .ok (value.primaryDomain, value.domains)) →
      C (.store (.createCertificate value))
  inserted : ∀ value stored, A (.store (.createCertificate value)) (.ok stored) → F stored
  issue : ∀ value values, F value → C (.issueACME value.id (issueRequest value values))
  renew : ∀ value force values, F value →
    C (.renewACME value.id (renewRequest value force values))
  revoke : ∀ value : Certificate, F value →
    C (.revokeACME value.id ⟨value.primaryDomain, value.keyType⟩)
  others : ∀ e, Other e → C e

section Walk
variable {A : (e : Eff) → Ans e → Prop} {C : Eff → Prop} {F : Certificate → Prop}
  (sources : Sources A C F)
include sources

theorem Sources.other {α : Type} {e : Eff} {f : Ans e → Operation α}
    (plain : Other e) (rest : ∀ r, Only A C (f r)) : Only A C (Prog.perform e >>= f) :=
  only_call.mpr ⟨sources.others e plain, fun r _ => rest r⟩

theorem Sources.store {q : Query} (plain : Other (.store q)) : Only A C (store q) :=
  ⟨sources.others _ plain, fun _ _ => trivial⟩

theorem Sources.publisher {α : Type} (certificate : Id) (p : Files α) :
    Only A C (publisher certificate p) := by
  induction p with
  | ret a => exact trivial
  | call e k ih => exact ⟨sources.others _ trivial, fun r _ => ih r⟩

theorem Sources.get {α : Type} (id : Id) {f : Except Error Certificate → Operation α}
    (refused : ∀ err, Only A C (f (.error err)))
    (found : ∀ value, F value → Only A C (f (.ok value))) :
    Only A C (get id >>= f) := by
  refine only_call.mpr ⟨sources.others _ trivial, fun r told => ?_⟩
  cases r with
  | error err => exact refused err
  | ok value => exact found value (sources.read id value told)

theorem Sources.locked {α : Type} (busy : α) (id : Id) {p : Operation α} (h : Only A C p) :
    Only A C (do
      let lock ← loadOrStore id
      match ← tryLock lock with
      | false => return busy
      | true =>
        let result ← p
        let _ ← unlock lock
        return result) := by
  refine sources.other trivial fun lock => sources.other trivial fun taken => ?_
  cases taken with
  | false => exact trivial
  | true => exact only_bind h fun _ => sources.other trivial fun _ => trivial

theorem Sources.failRenewal (value : Certificate) (job : Id) (exit : Int) (output : Bytes)
    (renewErr : Error) (eventType actor clientIP : String) :
    Only A C (failRenewal value job exit output renewErr eventType actor clientIP) :=
  sources.other trivial fun _ => sources.other trivial fun _ => sources.other trivial fun _ => trivial

theorem Sources.finishIssue (value : Certificate) (job : Id) (obtained : Obtained)
    {mark : Certificate → Operation (Except Error Unit)} (marks : ∀ c, Only A C (mark c))
    (eventType actor clientIP : String) :
    Only A C (finishIssue value job obtained mark eventType actor clientIP) := by
  cases obtained with
  | panicked => exact trivial
  | failed exit err => exact sources.failRenewal value job exit [] err eventType actor clientIP
  | material material =>
    refine sources.other trivial fun now => ?_
    split
    · exact sources.failRenewal value job _ _ _ eventType actor clientIP
    · refine only_bind (sources.publisher value.id _) fun published => ?_
      cases published with
      | error err => exact sources.failRenewal value job _ _ _ eventType actor clientIP
      | ok _ =>
        refine only_bind (marks _) fun marked => ?_
        cases marked with
        | error err => exact trivial
        | ok _ =>
          refine sources.other trivial fun _ => sources.other trivial fun _ => ?_
          exact sources.get value.id (fun _ => trivial) fun _ _ => trivial

theorem Sources.renewMaterial (s : Service) {value : Certificate} (known : F value)
    (force : Bool) : Only A C (renewMaterial s value force) := by
  have asked : ∀ values, Only A C (do
      let result ← renewACME value.id (renewRequest value force values)
      return acmeObtained value.primaryDomain result) :=
    fun values => only_call.mpr ⟨sources.renew value force values known, fun _ _ => trivial⟩
  unfold CertificateService.renewMaterial
  split
  · split
    · exact sources.other trivial fun _ => trivial
    · exact trivial
  · split
    · split
      · split
        · refine sources.other trivial fun resolved => ?_
          cases resolved with
          | error err => exact trivial
          | ok values => exact asked values
        · exact trivial
      · exact asked noProcessValues
    · exact trivial
  · exact trivial

theorem Sources.issueMaterial (s : Service) {value : Certificate} (known : F value) :
    Only A C (issueMaterial s value) := by
  have asked : ∀ values, Only A C (do
      let result ← issueACME value.id (issueRequest value values)
      return acmeObtained value.primaryDomain result) :=
    fun values => only_call.mpr ⟨sources.issue value values known, fun _ _ => trivial⟩
  unfold CertificateService.issueMaterial
  split
  · split
    · exact sources.other trivial fun _ => trivial
    · exact trivial
  · split
    · split
      · split
        · refine sources.other trivial fun resolved => ?_
          cases resolved with
          | error err => exact trivial
          | ok values => exact asked values
        · exact trivial
      · split
        · exact asked noProcessValues
        · exact trivial
    · exact trivial
  · exact trivial

theorem Sources.issueLocked (s : Service) {value : Certificate} (known : F value) (force : Bool)
    (jobType : JobType) (eventType actor clientIP : String) :
    Only A C (issueLocked s value force jobType eventType actor clientIP) := by
  unfold CertificateService.issueLocked
  split
  · split
    · exact trivial
    · unfold issueExistingCertificate
      split
      · exact trivial
      · refine sources.other trivial fun marked => ?_
        cases marked with
        | error err => exact trivial
        | ok _ =>
          refine sources.other trivial fun created => ?_
          cases created with
          | error err => exact sources.other trivial fun _ => trivial
          | ok job =>
            exact only_bind (sources.issueMaterial s known) fun obtained =>
              sources.finishIssue value job.id obtained
                (fun c => sources.store (q := .markCertificateIssued c) trivial) _ actor clientIP
  · unfold renewLocked
    split
    · exact trivial
    · refine sources.other trivial fun marked => ?_
      cases marked with
      | error err => exact trivial
      | ok _ =>
        refine sources.other trivial fun created => ?_
        cases created with
        | error err => exact trivial
        | ok job =>
          exact only_bind (sources.renewMaterial s known force) fun obtained =>
            sources.finishIssue value job.id obtained
              (fun c => sources.store (q := .markCertificateRenewed c) trivial) _ actor clientIP

theorem Sources.issueExisting (s : Service) (id : Id) (force : Bool) (jobType : JobType)
    (eventType actor clientIP : String) :
    Only A C (issueExisting s id force jobType eventType actor clientIP) :=
  sources.get id (fun _ => trivial) fun _ known =>
    sources.locked _ id (sources.issueLocked s known force jobType eventType actor clientIP)

theorem Sources.renewal (s : Service) (id : Id) (force : Bool) (actor clientIP : String) :
    Only A C (CertificateService.renew s id force actor clientIP) := by
  unfold CertificateService.renew
  split
  · exact sources.issueExisting s id _ _ _ actor clientIP
  · exact sources.issueExisting s id _ _ _ actor clientIP

theorem Sources.issuing (s : Service) (id : Id) (actor clientIP : String) :
    Only A C (CertificateService.issue s id actor clientIP) := by
  refine sources.get id (fun _ => trivial) fun value _ => ?_
  dsimp only
  split
  · exact trivial
  · exact sources.issueExisting s id _ _ _ actor clientIP

theorem Sources.revocation (s : Service) (id : Id) (actor clientIP : String) :
    Only A C (CertificateService.revoke s id actor clientIP) := by
  refine sources.get id (fun _ => trivial) fun value known => ?_
  dsimp only
  split
  · exact trivial
  · split
    · exact trivial
    · refine sources.locked _ id (sources.other trivial fun created => ?_)
      cases created with
      | error err => exact trivial
      | ok job =>
        refine only_call.mpr ⟨sources.revoke value known, fun revoked _ => ?_⟩
        cases revoked with
        | error refusal =>
          exact sources.other trivial fun _ => sources.other trivial fun _ => trivial
        | ok _ =>
          refine sources.other trivial fun marked => ?_
          cases marked with
          | error err => exact trivial
          | ok _ =>
            refine sources.other trivial fun _ => sources.other trivial fun _ => ?_
            exact sources.get value.id (fun _ => trivial) fun _ _ => trivial

theorem Sources.update (id : Id) (request : UpdateRequest) (actor clientIP : String) :
    Only A C (update id request actor clientIP) := by
  unfold CertificateService.update
  dsimp only
  split
  · exact trivial
  · split
    · exact trivial
    · refine sources.get id (fun _ => trivial) fun _ _ => sources.other trivial fun updated => ?_
      cases updated with
      | error err => exact trivial
      | ok _ =>
        refine sources.other trivial fun _ => ?_
        exact sources.get id (fun _ => trivial) fun _ _ => trivial

theorem Sources.deleteRecord (value : Certificate) (deleteFiles : Bool) (result : BackupResult)
    (actor clientIP : String) :
    Only A C (deleteRecord value deleteFiles result actor clientIP) := by
  refine sources.other trivial fun deleted => ?_
  cases deleted with
  | error err => exact trivial
  | ok _ =>
    dsimp only
    split
    · refine only_bind (sources.publisher value.id _) fun removed => ?_
      cases removed with
      | error err => exact trivial
      | ok _ => exact sources.other trivial fun _ => trivial
    · exact sources.other trivial fun _ => trivial

theorem Sources.delete (id : Id) (deleteFiles : Bool) (actor clientIP : String) :
    Only A C (delete id deleteFiles actor clientIP) := by
  refine sources.get id (fun _ => trivial) fun value _ => sources.locked _ id ?_
  unfold deleteLocked
  split
  · refine only_bind (sources.publisher value.id _) fun backedUp => ?_
    obtain ⟨result, outcome⟩ := backedUp
    cases outcome with
    | error err =>
      refine sources.other trivial fun audited => ?_
      cases audited <;> exact trivial
    | ok _ => exact sources.deleteRecord value true result actor clientIP
  · exact sources.deleteRecord value false _ actor clientIP

theorem Sources.issueCreated {value : Certificate}
    (normalized : ∃ primaryDomain sans,
      normalizeDomains primaryDomain sans = .ok (value.primaryDomain, value.domains))
    (jobType : JobType) {engine : Certificate → Operation Obtained}
    (asks : ∀ c, F c → Only A C (engine c))
    (detail : List (String × Detail)) (actor clientIP : String) :
    Only A C (issueCreated value jobType engine detail actor clientIP) := by
  refine only_call.mpr ⟨sources.insert value normalized, fun stored told => ?_⟩
  cases stored with
  | error err => exact trivial
  | ok stored =>
    have known := sources.inserted value stored told
    refine sources.other trivial fun created => ?_
    cases created with
    | error err => exact sources.other trivial fun _ => trivial
    | ok job =>
      refine only_bind (asks stored known) fun obtained => ?_
      cases obtained with
      | panicked => exact trivial
      | failed exit err =>
        exact sources.other trivial fun _ => sources.other trivial fun _ =>
          sources.other trivial fun _ => trivial
      | material material =>
        refine sources.other trivial fun now => ?_
        split
        · exact trivial
        · refine only_bind (sources.publisher stored.id _) fun published => ?_
          cases published with
          | error err =>
            exact sources.other trivial fun _ => sources.other trivial fun _ => trivial
          | ok _ =>
            refine sources.other trivial fun marked => ?_
            cases marked with
            | error err => exact trivial
            | ok _ =>
              refine sources.other trivial fun _ => sources.other trivial fun _ => ?_
              exact sources.get stored.id (fun _ => trivial) fun _ _ => trivial

-- A goal about a program is otherwise reduced as far as the texts in it go.
attribute [local irreducible] trimSpace normalizeDomains

theorem Sources.createACME (s : Service) (request : CreateACMERequest) (actor clientIP : String) :
    Only A C (createACME s request actor clientIP) := by
  unfold CertificateService.createACME
  split
  · exact trivial
  · split
    · exact trivial
    · rename_i normal
      split
      · exact trivial
      · split
        · exact trivial
        · have resolved : Only A C
              (challengeValues s request.challengeType request.dnsCredentialID) := by
            unfold challengeValues
            split
            · split
              · exact trivial
              · exact ⟨sources.others _ trivial, fun _ _ => trivial⟩
            · split <;> exact trivial
          refine only_bind resolved fun values => ?_
          cases values with
          | error err => exact trivial
          | ok values =>
            have normalized := (normalizeRequest_ok normal).1
            refine sources.issueCreated ⟨_, _, normalized⟩ _ (fun value known => ?_) _ actor
              clientIP
            exact only_call.mpr ⟨sources.issue value values known, fun _ _ => trivial⟩

theorem Sources.createSelfSigned (s : Service) (request : CreateSelfSignedRequest)
    (actor clientIP : String) : Only A C (createSelfSigned s request actor clientIP) := by
  unfold CertificateService.createSelfSigned
  split
  · exact trivial
  · rename_i normal
    split
    · exact trivial
    · split
      · exact trivial
      · split
        · exact trivial
        · have normalized := (normalizeRequest_ok normal).1
          refine sources.issueCreated ⟨_, _, normalized⟩ _ (fun value _ => ?_) _ actor clientIP
          split
          · exact sources.other trivial fun _ => trivial
          · exact trivial

theorem Sources.renewalAttempts (s : Service) (policy : Policy) (id : Id) (left : Nat) :
    Only A C (renewalAttempts s policy id left) := by
  induction left with
  | zero =>
    refine only_bind (sources.renewal s id false "scheduler" "") fun outcome => ?_
    cases outcome with
    | ok _ | panicked => exact trivial
    | error renewErr =>
      dsimp only
      split <;> exact trivial
  | succ left ih =>
    refine only_bind (sources.renewal s id false "scheduler" "") fun outcome => ?_
    cases outcome with
    | ok _ | panicked => exact trivial
    | error renewErr =>
      dsimp only
      split
      · exact trivial
      · refine sources.other trivial fun waited => ?_
        cases waited with
        | false => exact trivial
        | true => exact ih

theorem Sources.renewalWorker (s : Service) (policy : Policy) (scan : Nat) (id : Id) :
    Only A C (renewalWorker s policy scan id) := by
  have leave : Only A C (do
      let _ ← Prog.perform (Eff.releaseSlot scan)
      Prog.perform (Eff.workerDone scan id)) :=
    sources.other trivial fun _ => ⟨sources.others _ trivial, fun _ _ => trivial⟩
  refine sources.other trivial fun acquired => ?_
  cases acquired with
  | false => exact ⟨sources.others _ trivial, fun _ _ => trivial⟩
  | true =>
    refine only_bind (sources.renewalAttempts s policy id policy.retryCount) fun attempts => ?_
    cases attempts with
    | panicked => exact trivial
    | cancelled => exact leave
    | ended result =>
      cases result with
      | none => exact leave
      | some renewErr =>
        dsimp only
        split
        · exact leave
        · exact sources.other trivial fun _ => leave

theorem Sources.startWorkers (policy : Policy) (scan : Nat) (items : List Certificate) :
    Only A C (startWorkers policy scan items) := by
  induction items with
  | nil => exact trivial
  | cons item rest ih =>
    refine sources.other trivial fun now => ?_
    split
    · exact sources.other trivial fun _ => sources.other trivial fun _ => ih
    · exact ih

theorem Sources.runRenewalScan (policy : Policy) : Only A C (runRenewalScan policy) := by
  refine sources.other trivial fun listed => ?_
  cases listed with
  | error err => exact trivial
  | ok values =>
    refine sources.other trivial fun scan => ?_
    refine only_bind (sources.startWorkers policy scan values) fun _ => ?_
    refine sources.other trivial fun _ => sources.other trivial fun renewalErrors => ?_
    split <;> exact trivial

theorem Sources.programOf (s : Service) (request : Request) : Only A C (programOf s request) := by
  cases request with
  | list => exact sources.other trivial fun _ => trivial
  | get id => exact sources.other trivial fun _ => trivial
  | readFile id fileName =>
    refine only_bind (sources.get id (fun _ => trivial) fun value _ => ?_) fun _ => trivial
    refine only_bind (sources.publisher id _) fun content => ?_
    cases content <;> exact trivial
  | availableFiles id =>
    refine only_bind (sources.get id (fun _ => trivial) fun value _ => ?_) fun _ => trivial
    exact sources.publisher id _
  | update id request actor clientIP =>
    exact only_bind (sources.update id request actor clientIP) fun _ => trivial
  | createSelfSigned request actor clientIP =>
    exact only_bind (sources.createSelfSigned s request actor clientIP) fun _ => trivial
  | createACME request actor clientIP =>
    exact only_bind (sources.createACME s request actor clientIP) fun _ => trivial
  | issue id actor clientIP =>
    exact only_bind (sources.issuing s id actor clientIP) fun _ => trivial
  | renew id force actor clientIP =>
    exact only_bind (sources.renewal s id force actor clientIP) fun _ => trivial
  | revoke id actor clientIP =>
    exact only_bind (sources.revocation s id actor clientIP) fun _ => trivial
  | delete id deleteFiles actor clientIP => exact sources.delete id deleteFiles actor clientIP
  | scan policy => exact sources.runRenewalScan policy
  | worker policy scan id =>
    exact only_bind (sources.renewalWorker s policy scan id) fun _ => trivial

end Walk

end EngineRequests
