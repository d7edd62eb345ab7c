import CertMate.CertificateService

/-!
# Which calls the service makes

The calls that need a fresh password come from forced renewals, revocations and
deletions only, and no operation writes an audit event about a private key.
-/
namespace ServiceCalls
open CertificateModel CallTrees SqliteStore ServiceWorld CertificateFiles CertificateService

/-- The events about access to a private key. -/
def keyEvents : List String :=
  ["private_key.view", "private_key.download", "private_key.archive_download"]

/-- Of the calls that are sensitive, those with `P` are made. -/
def Plain (P : Eff → Prop) : Eff → Prop
  | .renewACME id request => request.force = true → P (.renewACME id request)
  | .revokeACME id request => P (.revokeACME id request)
  | .store (.deleteCertificateWithAudit id event) =>
    P (.store (.deleteCertificateWithAudit id event))
  | .store (.createAuditEvent event) => event.eventType ∉ keyEvents
  | _ => True

abbrev MayForce (P : Eff → Prop) : Prop := ∀ id request, P (.renewACME id request)

abbrev MayRevoke (P : Eff → Prop) : Prop := ∀ id request, P (.revokeACME id request)

abbrev MayDelete (P : Eff → Prop) : Prop :=
  ∀ id event, P (.store (.deleteCertificateWithAudit id event))

section Walk
variable {P : Eff → Prop}

abbrev Makes (P : Eff → Prop) {α : Type} (p : Operation α) : Prop :=
  Only (fun _ _ => True) (Plain P) p

/-- What an operation does: its calls are plain, and a job that it creates is running. -/
def Regular (P : Eff → Prop) : Eff → Prop
  | .store (.createJob run) => ∃ certificate jobType, run = runningJob certificate jobType
  | e => Plain P e

abbrev Behaves (P : Eff → Prop) {α : Type} (p : Operation α) : Prop :=
  Only (fun _ _ => True) (Regular P) p

theorem plain_of_regular {e : Eff} (regular : Regular P e) : Plain P e := by
  cases e with
  | store q =>
    cases q with
    | createJob run => trivial
    | _ => exact regular
  | _ => exact regular

theorem Behaves.makes {α : Type} {p : Operation α} (h : Behaves P p) : Makes P p :=
  h.mono fun _ => plain_of_regular

theorem plain_call {α : Type} {e : Eff} {f : Ans e → Operation α} (regular : Regular P e)
    (rest : ∀ r, Behaves P (f r)) : Behaves P (Prog.perform e >>= f) :=
  only_call.mpr ⟨regular, fun r _ => rest r⟩

theorem publisher_plain {α : Type} (certificate : Id) (p : Files α) :
    Behaves P (publisher certificate p) := by
  induction p with
  | ret a => exact trivial
  | call e k ih => exact ⟨trivial, fun r _ => ih r⟩

theorem store_plain {q : Query} (regular : Regular P (.store q)) : Behaves P (store q) :=
  ⟨regular, fun _ _ => trivial⟩

theorem get_plain (id : Id) : Behaves P (get id) := store_plain trivial

theorem markIssued_plain (c : Certificate) : Behaves P (store (.markCertificateIssued c)) :=
  store_plain trivial

theorem markRenewed_plain (c : Certificate) : Behaves P (store (.markCertificateRenewed c)) :=
  store_plain trivial

theorem list_plain : Behaves P list := store_plain trivial

theorem audit_plain {eventType : String} (other : eventType ∉ keyEvents) (certificate : Id)
    (actor clientIP result : String) (detail : List (String × Detail)) :
    Behaves P (audit certificate eventType actor clientIP result detail) :=
  ⟨other, fun _ _ => trivial⟩

theorem readFile_plain (id : Id) (fileName : String) : Behaves P (readFile id fileName) := by
  refine only_bind (get_plain id) fun found => ?_
  cases found with
  | error err => exact trivial
  | ok value =>
    refine only_bind (publisher_plain id _) fun content => ?_
    cases content <;> exact trivial

theorem availableFiles_plain (id : Id) : Behaves P (availableFiles id) := by
  refine only_bind (get_plain id) fun found => ?_
  cases found with
  | error err => exact trivial
  | ok value => exact publisher_plain id _

theorem update_plain (id : Id) (request : UpdateRequest) (actor clientIP : String) :
    Behaves P (update id request actor clientIP) := by
  unfold update
  dsimp only
  split
  · exact trivial
  · split
    · exact trivial
    · refine only_bind (get_plain id) fun found => ?_
      cases found with
      | error err => exact trivial
      | ok _ =>
        refine plain_call trivial fun updated => ?_
        cases updated with
        | error err => exact trivial
        | ok _ =>
          have other : "certificate.update" ∉ keyEvents := by decide
          exact ⟨other, fun _ _ => ⟨trivial, fun _ _ => trivial⟩⟩

theorem failRenewal_plain {eventType : String} (other : eventType ∉ keyEvents) (value : Certificate)
    (job : Id) (exit : Int) (output : Bytes) (renewErr : Error) (actor clientIP : String) :
    Behaves P (failRenewal value job exit output renewErr eventType actor clientIP) :=
  ⟨trivial, fun _ _ => ⟨trivial, fun _ _ => ⟨other, fun _ _ => trivial⟩⟩⟩

theorem publishAndRecord_plain {eventType : String} (other : eventType ∉ keyEvents)
    (value : Certificate) (material : Material) (job : Id)
    {mark : Certificate → Operation (Except Error Unit)} (plain : ∀ c, Behaves P (mark c))
    (actor clientIP : String) :
    Behaves P (publishAndRecord value material job mark eventType actor clientIP) := by
  refine plain_call trivial fun now => ?_
  split
  · exact failRenewal_plain other value job _ _ _ actor clientIP
  · refine only_bind (publisher_plain value.id _) fun published => ?_
    cases published with
    | error err => exact failRenewal_plain other value job _ _ _ actor clientIP
    | ok _ =>
      refine only_bind (plain _) fun marked => ?_
      cases marked with
      | error err => exact trivial
      | ok _ =>
        exact plain_call trivial fun _ => plain_call other fun _ =>
          only_bind (get_plain value.id) fun _ => trivial

theorem finishIssue_plain {eventType : String} (other : eventType ∉ keyEvents) (value : Certificate)
    (job : Id) (obtained : Obtained) {mark : Certificate → Operation (Except Error Unit)}
    (plain : ∀ c, Behaves P (mark c)) (actor clientIP : String) :
    Behaves P (finishIssue value job obtained mark eventType actor clientIP) := by
  cases obtained with
  | panicked => exact trivial
  | failed exit err => exact failRenewal_plain other value job exit [] err actor clientIP
  | material material => exact publishAndRecord_plain other value material job plain actor clientIP

theorem renewMaterial_plain (s : Service) (value : Certificate) {force : Bool}
    (fresh : force = true → MayForce P) : Behaves P (renewMaterial s value force) := by
  unfold renewMaterial
  split
  · split
    · exact ⟨trivial, fun _ _ => trivial⟩
    · exact trivial
  · split
    · split
      · split
        · refine plain_call trivial fun resolved => ?_
          cases resolved with
          | error err => exact trivial
          | ok values => exact ⟨fun forced => fresh forced _ _, fun _ _ => trivial⟩
        · exact trivial
      · exact ⟨fun forced => fresh forced _ _, fun _ _ => trivial⟩
    · exact trivial
  · exact trivial

theorem issueMaterial_plain (s : Service) (value : Certificate) :
    Behaves P (issueMaterial s value) := by
  unfold issueMaterial
  split
  · split
    · exact ⟨trivial, fun _ _ => trivial⟩
    · exact trivial
  · split
    · split
      · split
        · refine plain_call trivial fun resolved => ?_
          cases resolved with
          | error err => exact trivial
          | ok values => exact ⟨trivial, fun _ _ => trivial⟩
        · exact trivial
      · split
        · exact ⟨trivial, fun _ _ => trivial⟩
        · exact trivial
    · exact trivial
  · exact trivial

theorem issueExistingCertificate_plain (s : Service) (value : Certificate)
    (actor clientIP : String) : Behaves P (issueExistingCertificate s value actor clientIP) := by
  have other : "certificate.issue" ∉ keyEvents := by decide
  unfold issueExistingCertificate
  split
  · exact trivial
  · refine plain_call trivial fun marked => ?_
    cases marked with
    | error err => exact trivial
    | ok _ =>
      refine plain_call ⟨_, _, rfl⟩ fun created => ?_
      cases created with
      | error err => exact ⟨trivial, fun _ _ => trivial⟩
      | ok job =>
        exact only_bind (issueMaterial_plain s value) fun obtained =>
          finishIssue_plain other value job.id obtained (@markIssued_plain P)
            actor clientIP

theorem renewLocked_plain (s : Service) (value : Certificate) {force : Bool}
    (fresh : force = true → MayForce P) (jobType : JobType) {eventType : String}
    (other : eventType ∉ keyEvents) (actor clientIP : String) :
    Behaves P (renewLocked s value force jobType eventType actor clientIP) := by
  unfold renewLocked
  split
  · exact trivial
  · refine plain_call trivial fun marked => ?_
    cases marked with
    | error err => exact trivial
    | ok _ =>
      refine plain_call ⟨_, _, rfl⟩ fun created => ?_
      cases created with
      | error err => exact trivial
      | ok job =>
        exact only_bind (renewMaterial_plain s value fresh) fun obtained =>
          finishIssue_plain other value job.id obtained (@markRenewed_plain P)
            actor clientIP

/-- Under the job type of `Issue` the flag is not looked at. -/
theorem issueLocked_plain (s : Service) (value : Certificate) {force : Bool} {jobType : JobType}
    (fresh : jobType = .issue ∨ (force = true → MayForce P)) {eventType : String}
    (other : eventType ∉ keyEvents) (actor clientIP : String) :
    Behaves P (issueLocked s value force jobType eventType actor clientIP) := by
  unfold issueLocked
  split
  · split
    · exact trivial
    · exact issueExistingCertificate_plain s value actor clientIP
  · rename_i renewal
    exact renewLocked_plain s value (fresh.resolve_left renewal) jobType other actor clientIP

theorem locked_plain {α : Type} (busy : α) (id : Id) {p : Operation α} (h : Behaves P p) :
    Behaves P (do
      let lock ← loadOrStore id
      match ← tryLock lock with
      | false => return busy
      | true =>
        let result ← p
        let _ ← unlock lock
        return result) := by
  refine plain_call trivial fun lock => plain_call trivial fun taken => ?_
  cases taken with
  | false => exact trivial
  | true => exact only_bind h fun _ => plain_call trivial fun _ => trivial

theorem issueExisting_plain (s : Service) (id : Id) {force : Bool} {jobType : JobType}
    (fresh : jobType = .issue ∨ (force = true → MayForce P)) {eventType : String}
    (other : eventType ∉ keyEvents) (actor clientIP : String) :
    Behaves P (issueExisting s id force jobType eventType actor clientIP) := by
  refine only_bind (get_plain id) fun found => ?_
  cases found with
  | error err => exact trivial
  | ok value => exact locked_plain _ id (issueLocked_plain s value fresh other actor clientIP)

theorem renew_plain (s : Service) (id : Id) {force : Bool} (fresh : force = true → MayForce P)
    (actor clientIP : String) : Behaves P (renew s id force actor clientIP) := by
  unfold renew
  split
  · exact issueExisting_plain s id (Or.inr fresh) (by decide) actor clientIP
  · exact issueExisting_plain s id (Or.inr fresh) (by decide) actor clientIP

theorem issue_plain (s : Service) (id : Id) (actor clientIP : String) :
    Behaves P (issue s id actor clientIP) := by
  refine only_bind (get_plain id) fun found => ?_
  cases found with
  | error err => exact trivial
  | ok value =>
    dsimp only
    split
    · exact trivial
    · exact issueExisting_plain s id (Or.inl rfl) (by decide) actor clientIP

theorem revokeLocked_plain (fresh : MayRevoke P) (value : Certificate) (actor clientIP : String) :
    Behaves P (revokeLocked value actor clientIP) := by
  have other : "certificate.revoke" ∉ keyEvents := by decide
  refine plain_call ⟨_, _, rfl⟩ fun created => ?_
  cases created with
  | error err => exact trivial
  | ok job =>
    refine plain_call (fresh _ _) fun revoked => ?_
    cases revoked with
    | error refusal => exact ⟨trivial, fun _ _ => ⟨other, fun _ _ => trivial⟩⟩
    | ok _ =>
      refine plain_call trivial fun marked => ?_
      cases marked with
      | error err => exact trivial
      | ok _ =>
        exact plain_call trivial fun _ => plain_call other fun _ =>
          only_bind (get_plain value.id) fun _ => trivial

theorem revoke_plain (fresh : MayRevoke P) (s : Service) (id : Id) (actor clientIP : String) :
    Behaves P (revoke s id actor clientIP) := by
  refine only_bind (get_plain id) fun found => ?_
  cases found with
  | error err => exact trivial
  | ok value =>
    dsimp only
    split
    · exact trivial
    · split
      · exact trivial
      · exact locked_plain _ id (revokeLocked_plain fresh value actor clientIP)

theorem deleteRecord_plain (fresh : MayDelete P) (value : Certificate) (deleteFiles : Bool)
    (result : BackupResult) (actor clientIP : String) :
    Behaves P (deleteRecord value deleteFiles result actor clientIP) := by
  refine plain_call (fresh _ _) fun deleted => ?_
  cases deleted with
  | error err => exact trivial
  | ok _ =>
    dsimp only
    split
    · refine only_bind (publisher_plain value.id _) fun removed => ?_
      cases removed with
      | error err => exact trivial
      | ok _ => exact ⟨trivial, fun _ _ => trivial⟩
    · exact ⟨trivial, fun _ _ => trivial⟩

theorem deleteLocked_plain (fresh : MayDelete P) (value : Certificate) (deleteFiles : Bool)
    (actor clientIP : String) : Behaves P (deleteLocked value deleteFiles actor clientIP) := by
  have other : "certificate.delete" ∉ keyEvents := by decide
  unfold deleteLocked
  split
  · refine only_bind (publisher_plain value.id _) fun backedUp => ?_
    obtain ⟨result, outcome⟩ := backedUp
    cases outcome with
    | error err =>
      refine plain_call other fun audited => ?_
      cases audited <;> exact trivial
    | ok _ => exact deleteRecord_plain fresh value true result actor clientIP
  · exact deleteRecord_plain fresh value false _ actor clientIP

theorem delete_plain (fresh : MayDelete P) (id : Id) (deleteFiles : Bool)
    (actor clientIP : String) : Behaves P (delete id deleteFiles actor clientIP) := by
  refine only_bind (get_plain id) fun found => ?_
  cases found with
  | error err => exact trivial
  | ok value => exact locked_plain _ id (deleteLocked_plain fresh value deleteFiles actor clientIP)

theorem issueCreated_plain (value : Certificate) (jobType : JobType)
    {engine : Certificate → Operation Obtained} (plain : ∀ c, Behaves P (engine c))
    (detail : List (String × Detail)) (actor clientIP : String) :
    Behaves P (issueCreated value jobType engine detail actor clientIP) := by
  have other : "certificate.create" ∉ keyEvents := by decide
  refine plain_call trivial fun stored => ?_
  cases stored with
  | error err => exact trivial
  | ok value =>
    refine plain_call ⟨_, _, rfl⟩ fun created => ?_
    cases created with
    | error err => exact plain_call trivial fun _ => trivial
    | ok job =>
      refine only_bind (plain value) fun obtained => ?_
      cases obtained with
      | panicked => exact trivial
      | failed exit err =>
        exact plain_call trivial fun _ => plain_call trivial fun _ =>
          plain_call other fun _ => trivial
      | material material =>
        refine plain_call trivial fun now => ?_
        split
        · exact trivial
        · refine only_bind (publisher_plain value.id _) fun published => ?_
          cases published with
          | error err => exact plain_call trivial fun _ => plain_call trivial fun _ => trivial
          | ok _ =>
            refine plain_call trivial fun marked => ?_
            cases marked with
            | error err => exact trivial
            | ok _ =>
              exact plain_call trivial fun _ => plain_call other fun _ =>
                only_bind (get_plain value.id) fun _ => trivial

theorem challengeValues_plain (s : Service) (challengeType dnsCredentialID : String) :
    Behaves P (challengeValues s challengeType dnsCredentialID) := by
  unfold challengeValues
  split
  · split
    · exact trivial
    · exact ⟨trivial, fun _ _ => trivial⟩
  · split <;> exact trivial

theorem createACME_plain (s : Service) (request : CreateACMERequest) (actor clientIP : String) :
    Behaves P (createACME s request actor clientIP) := by
  unfold createACME
  split
  · exact trivial
  · split
    · exact trivial
    · split
      · exact trivial
      · split
        · exact trivial
        · refine only_bind (challengeValues_plain s _ _) fun values => ?_
          cases values with
          | error err => exact trivial
          | ok values =>
            refine issueCreated_plain _ _ (fun value => ?_) _ actor clientIP
            exact plain_call trivial fun _ => trivial

theorem createSelfSigned_plain (s : Service) (request : CreateSelfSignedRequest)
    (actor clientIP : String) : Behaves P (createSelfSigned s request actor clientIP) := by
  unfold createSelfSigned
  split
  · exact trivial
  · split
    · exact trivial
    · split
      · exact trivial
      · split
        · exact trivial
        · refine issueCreated_plain _ _ (fun value => ?_) _ actor clientIP
          split
          · exact plain_call trivial fun _ => trivial
          · exact trivial

theorem renewalAttempts_plain (s : Service) (policy : Policy) (id : Id) (left : Nat) :
    Behaves P (renewalAttempts s policy id left) := by
  have unforced : false = true → MayForce P := fun h => nomatch h
  induction left with
  | zero =>
    refine only_bind (renew_plain s id unforced "scheduler" "") fun outcome => ?_
    cases outcome with
    | ok _ | panicked => exact trivial
    | error renewErr =>
      dsimp only
      split <;> exact trivial
  | succ left ih =>
    refine only_bind (renew_plain s id unforced "scheduler" "") fun outcome => ?_
    cases outcome with
    | ok _ | panicked => exact trivial
    | error renewErr =>
      dsimp only
      split
      · exact trivial
      · refine plain_call trivial fun waited => ?_
        cases waited with
        | false => exact trivial
        | true => exact ih

theorem renewalWorker_plain (s : Service) (policy : Policy) (scan : Nat) (id : Id) :
    Behaves P (renewalWorker s policy scan id) := by
  refine plain_call trivial fun acquired => ?_
  cases acquired with
  | false => exact ⟨trivial, fun _ _ => trivial⟩
  | true =>
    refine only_bind (renewalAttempts_plain s policy id policy.retryCount) fun attempts => ?_
    have leave : Behaves P (do
        let _ ← Prog.perform (Eff.releaseSlot scan)
        Prog.perform (Eff.workerDone scan id)) :=
      plain_call trivial fun _ => ⟨trivial, fun _ _ => trivial⟩
    cases attempts with
    | panicked => exact trivial
    | cancelled => exact leave
    | ended result =>
      cases result with
      | none => exact leave
      | some renewErr =>
        dsimp only
        split
        · exact leave
        · exact plain_call trivial fun _ => leave

theorem startWorkers_plain (policy : Policy) (scan : Nat) (items : List Certificate) :
    Behaves P (startWorkers policy scan items) := by
  induction items with
  | nil => exact trivial
  | cons item rest ih =>
    refine plain_call trivial fun now => ?_
    split
    · exact plain_call trivial fun _ => plain_call trivial fun _ => ih
    · exact ih

theorem runRenewalScan_plain (policy : Policy) : Behaves P (runRenewalScan policy) := by
  refine only_bind list_plain fun listed => ?_
  cases listed with
  | error err => exact trivial
  | ok values =>
    refine plain_call trivial fun scan => only_bind (startWorkers_plain policy scan values) fun _ =>
      plain_call trivial fun _ => plain_call trivial fun renewalErrors => ?_
    cases Error.joinAll renewalErrors <;> exact trivial

end Walk

end ServiceCalls
