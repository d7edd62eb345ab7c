import CertMate.ServicePool

/-!
# The calls of an operation

What an operation calls, up to the calls that are calm. A status is set by an issue, a
renewal or a revocation, each of them a status of its own. The semaphore and the wait group
of a renewal scan are used by the scan and its goroutines only. And a renewal ends in a
panic only where the service was built without an engine.
-/
namespace OperationCalls
open CertificateModel CallTrees SqliteStore ServiceWorld CertificateFiles CertificateService
  ServiceProtocol
open DomainValidation (trimSpace normalizeDomains)

/-- A call that is not about a scan. -/
def Apart : Eff → Prop
  | .newScan _ | .addWorker _ _ | .startWorker _ _ _ | .workerDone _ _ | .waitWorkers _
  | .acquireSlot _ | .releaseSlot _ | .reportError _ _ | .reportedErrors _ => False
  | _ => True

/-- A call that neither is about a scan nor puts a certificate to work or out of it. -/
def Calm : Eff → Prop
  | .store (.setCertificateStatus _ _) | .store (.markCertificateRenewed _) => False
  | e => Apart e

/-- The program makes calls of `C` only and ends with `Q`. -/
abbrev Calls (C : Eff → Prop) {α : Type} (p : Operation α) (Q : α → Prop) : Prop :=
  Silent (fun _ _ => True) C p Q

abbrev MayIssue (C : Eff → Prop) : Prop := ∀ id, C (.store (.setCertificateStatus id .issuing))

structure MayRenew (C : Eff → Prop) : Prop where
  status : ∀ id, C (.store (.setCertificateStatus id .renewing))
  mark : ∀ c, C (.store (.markCertificateRenewed c))

abbrev MayRevoke (C : Eff → Prop) : Prop := ∀ id, C (.store (.setCertificateStatus id .revoked))

/-- A panic comes from a missing engine. -/
abbrev Equipped (s : Service) {α : Type} (panicked : α) (r : α) : Prop :=
  r = panicked → s.engine = false

section Walk
variable {α : Type} {C : Eff → Prop}

theorem calls_call {e : Eff} {f : Ans e → Operation α} {Q : α → Prop} (within : C e)
    (rest : ∀ r, Calls C (f r) Q) : Calls C (Prog.perform e >>= f) Q :=
  follows_call.mpr ⟨within, fun r _ => rest r⟩

theorem calls_perform {e : Eff} (within : C e) : Calls C (Prog.perform e) fun _ => True :=
  ⟨within, fun _ _ => trivial⟩

theorem calls_any {p : Operation α} {Q : α → Prop} (h : Calls C p Q) : Calls C p fun _ => True :=
  Follows.mono (fun _ _ _ => trivial) h

theorem calls_sound {s : Service} {panicked a : α} (other : a ≠ panicked) :
    Calls C (.ret a) (Equipped s panicked) :=
  fun same => absurd same other

variable (calm : ∀ e, Calm e → C e)
include calm

theorem calls_calm {e : Eff} {f : Ans e → Operation α} {Q : α → Prop} (quiet : Calm e)
    (rest : ∀ r, Calls C (f r) Q) : Calls C (Prog.perform e >>= f) Q :=
  calls_call (calm e quiet) rest

theorem calls_get {f : Except Error Certificate → Operation α} {Q : α → Prop} (id : Id)
    (rest : ∀ r, Calls C (f r) Q) : Calls C (get id >>= f) Q :=
  calls_calm calm trivial rest

theorem calls_publisher (certificate : Id) (p : Files α) :
    Calls C (publisher certificate p) fun _ => True := by
  induction p with
  | ret a => exact trivial
  | call e k ih => exact ⟨calm _ trivial, fun r _ => ih r⟩

theorem calls_locked {Q : α → Prop} (busy : α) (refused : Q busy) (id : Id) {p : Operation α}
    (h : Calls C p Q) :
    Calls C (do
      let lock ← loadOrStore id
      match ← tryLock lock with
      | false => return busy
      | true =>
        let result ← p
        let _ ← unlock lock
        return result) Q := by
  refine calls_calm calm trivial fun lock => calls_calm calm trivial fun taken => ?_
  cases taken with
  | false => exact refused
  | true => exact Silent.bind h fun result kept => calls_calm calm trivial fun _ => kept

section Issuing
variable (s : Service)

omit calm in
theorem answer_equipped (r : Except Error Certificate) : Equipped s .panicked (answer r) := by
  intro panicked
  cases r <;> cases panicked

theorem failRenewal_calls (value : Certificate) (job : Id) (exit : Int) (output : Bytes)
    (renewErr : Error) (eventType actor clientIP : String) :
    Calls C (failRenewal value job exit output renewErr eventType actor clientIP)
      (Equipped s .panicked) :=
  calls_calm calm trivial fun _ => calls_calm calm trivial fun _ =>
    calls_calm calm trivial fun _ => calls_sound (by simp)

theorem publishAndRecord_calls (value : Certificate) (material : Material) (job : Id)
    {mark : Certificate → Operation (Except Error Unit)}
    (marks : ∀ c, Calls C (mark c) fun _ => True) (eventType actor clientIP : String) :
    Calls C (publishAndRecord value material job mark eventType actor clientIP)
      (Equipped s .panicked) := by
  refine calls_calm calm trivial fun now => ?_
  split
  · exact failRenewal_calls calm s value job _ _ _ eventType actor clientIP
  · refine Silent.bind (calls_publisher calm value.id _) fun published _ => ?_
    cases published with
    | error err => exact failRenewal_calls calm s value job _ _ _ eventType actor clientIP
    | ok _ =>
      refine Silent.bind (marks _) fun marked _ => ?_
      cases marked with
      | error err => exact calls_sound (by simp)
      | ok _ =>
        refine calls_calm calm trivial fun _ => calls_calm calm trivial fun _ => ?_
        exact calls_get calm value.id fun r => answer_equipped s r

theorem finishIssue_calls (value : Certificate) (job : Id) {obtained : Obtained}
    (equipped : Equipped s .panicked obtained) {mark : Certificate → Operation (Except Error Unit)}
    (marks : ∀ c, Calls C (mark c) fun _ => True) (eventType actor clientIP : String) :
    Calls C (finishIssue value job obtained mark eventType actor clientIP)
      (Equipped s .panicked) := by
  cases obtained with
  | panicked => exact fun _ => equipped rfl
  | failed exit err => exact failRenewal_calls calm s value job exit [] err eventType actor clientIP
  | material material =>
    exact publishAndRecord_calls calm s value material job marks eventType actor clientIP

omit calm in
theorem selfSignedObtained_equipped (r : Except CommandFailure (Option SelfSignedResult)) :
    Equipped s .panicked (selfSignedObtained r) := by
  intro panicked
  rcases r with err | _ | result <;> cases panicked

omit calm in
theorem acmeObtained_equipped (domain : String) (r : Except CommandFailure (Option ACMEResult)) :
    Equipped s .panicked (acmeObtained domain r) := by
  intro panicked
  rcases r with err | _ | result <;> cases panicked

theorem renewMaterial_calls (value : Certificate) (force : Bool) :
    Calls C (renewMaterial s value force) (Equipped s .panicked) := by
  unfold renewMaterial
  split
  · split
    · exact calls_calm calm trivial fun r => selfSignedObtained_equipped s r
    · rename_i missing
      exact fun _ => by simpa using missing
  · split
    · split
      · split
        · refine calls_calm calm trivial fun resolved => ?_
          cases resolved with
          | error err => exact calls_sound (by simp)
          | ok values => exact calls_calm calm trivial fun r => acmeObtained_equipped s _ r
        · exact calls_sound (by simp)
      · exact calls_calm calm trivial fun r => acmeObtained_equipped s _ r
    · exact calls_sound (by simp)
  · exact calls_sound (by simp)

theorem issueMaterial_calls (value : Certificate) :
    Calls C (issueMaterial s value) (Equipped s .panicked) := by
  unfold issueMaterial
  split
  · split
    · exact calls_calm calm trivial fun r => selfSignedObtained_equipped s r
    · exact calls_sound (by simp)
  · split
    · split
      · split
        · refine calls_calm calm trivial fun resolved => ?_
          cases resolved with
          | error err => exact calls_sound (by simp)
          | ok values => exact calls_calm calm trivial fun r => acmeObtained_equipped s _ r
        · exact calls_sound (by simp)
      · split
        · exact calls_calm calm trivial fun r => acmeObtained_equipped s _ r
        · exact calls_sound (by simp)
    · exact calls_sound (by simp)
  · exact calls_sound (by simp)

theorem issueExistingCertificate_calls (issues : MayIssue C) (value : Certificate)
    (actor clientIP : String) :
    Calls C (issueExistingCertificate s value actor clientIP) (Equipped s .panicked) := by
  unfold issueExistingCertificate
  split
  · exact calls_sound (by simp)
  · refine calls_call (issues value.id) fun marked => ?_
    cases marked with
    | error err => exact calls_sound (by simp)
    | ok _ =>
      refine calls_calm calm trivial fun created => ?_
      cases created with
      | error err => exact calls_calm calm trivial fun _ => calls_sound (by simp)
      | ok job =>
        refine Silent.bind (issueMaterial_calls calm s value) fun obtained equipped => ?_
        have marks : ∀ c, Calls C (store (.markCertificateIssued c)) fun _ => True :=
          fun c => calls_perform (calm _ trivial)
        exact finishIssue_calls calm s value job.id equipped marks _ actor clientIP

theorem renewLocked_calls (renews : MayRenew C) (value : Certificate) (force : Bool)
    (jobType : JobType) (eventType actor clientIP : String) :
    Calls C (renewLocked s value force jobType eventType actor clientIP)
      (Equipped s .panicked) := by
  unfold renewLocked
  split
  · exact calls_sound (by simp)
  · refine calls_call (renews.status value.id) fun marked => ?_
    cases marked with
    | error err => exact calls_sound (by simp)
    | ok _ =>
      refine calls_calm calm trivial fun created => ?_
      cases created with
      | error err => exact calls_sound (by simp)
      | ok job =>
        refine Silent.bind (renewMaterial_calls calm s value force) fun obtained equipped => ?_
        have marks : ∀ c, Calls C (store (.markCertificateRenewed c)) fun _ => True :=
          fun c => calls_perform (renews.mark c)
        exact finishIssue_calls calm s value job.id equipped marks eventType actor clientIP

theorem issueExisting_calls {jobType : JobType} (issues : jobType = .issue → MayIssue C)
    (renews : jobType ≠ .issue → MayRenew C) (id : Id) (force : Bool)
    (eventType actor clientIP : String) :
    Calls C (issueExisting s id force jobType eventType actor clientIP) (Equipped s .panicked) := by
  refine calls_get calm id fun found => ?_
  cases found with
  | error err => exact calls_sound (by simp)
  | ok value =>
    refine calls_locked calm _ (by simp [Equipped]) id ?_
    unfold issueLocked
    split
    · rename_i issue
      split
      · exact calls_sound (by simp)
      · exact issueExistingCertificate_calls calm s (issues issue) value actor clientIP
    · rename_i renewal
      exact renewLocked_calls calm s (renews renewal) value force jobType eventType actor clientIP

theorem renew_calls (renews : MayRenew C) (id : Id) (force : Bool) (actor clientIP : String) :
    Calls C (renew s id force actor clientIP) (Equipped s .panicked) := by
  have issues : ∀ {jobType : JobType}, jobType ≠ .issue → jobType = .issue → MayIssue C :=
    fun other same => absurd same other
  unfold renew
  split
  · exact issueExisting_calls calm s (issues (by decide)) (fun _ => renews) id force _ actor clientIP
  · exact issueExisting_calls calm s (issues (by decide)) (fun _ => renews) id force _ actor clientIP

theorem renewalAttempt_calls (renews : MayRenew C) (id : Id) {again : Error → Operation Attempts}
    (more : ∀ err, Calls C (again err) (Equipped s .panicked)) :
    Calls C (renewalAttempt s id again) (Equipped s .panicked) := by
  refine Silent.bind (renew_calls calm s renews id false "scheduler" "") fun outcome equipped => ?_
  cases outcome with
  | ok value => exact calls_sound (by simp)
  | panicked => exact fun _ => equipped rfl
  | error err =>
    dsimp only
    split
    · exact calls_sound (by simp)
    · exact more err

theorem renewalAttempts_calls (renews : MayRenew C) (policy : Policy) (id : Id) (left : Nat) :
    Calls C (renewalAttempts s policy id left) (Equipped s .panicked) := by
  induction left with
  | zero => exact renewalAttempt_calls calm s renews id fun err => calls_sound (by simp)
  | succ left ih =>
    refine renewalAttempt_calls calm s renews id fun err => calls_calm calm trivial fun waited => ?_
    cases waited with
    | false => exact calls_sound (by simp)
    | true => exact ih

end Issuing

theorem readFile_calls (id : Id) (fileName : String) :
    Calls C (readFile id fileName) fun _ => True := by
  refine calls_get calm id fun found => ?_
  cases found with
  | error err => exact trivial
  | ok value =>
    refine Silent.bind (calls_publisher calm id _) fun content _ => ?_
    cases content <;> exact trivial

theorem availableFiles_calls (id : Id) : Calls C (availableFiles id) fun _ => True := by
  refine calls_get calm id fun found => ?_
  cases found with
  | error err => exact trivial
  | ok value => exact calls_publisher calm id _

theorem update_calls (id : Id) (request : UpdateRequest) (actor clientIP : String) :
    Calls C (update id request actor clientIP) fun _ => True := by
  unfold update
  dsimp only
  split
  · exact trivial
  · split
    · exact trivial
    · refine calls_get calm id fun found => ?_
      cases found with
      | error err => exact trivial
      | ok _ =>
        refine calls_calm calm trivial fun updated => ?_
        cases updated with
        | error err => exact trivial
        | ok _ => exact calls_calm calm trivial fun _ => calls_get calm id fun _ => trivial

theorem issue_calls (s : Service) (issues : MayIssue C) (id : Id) (actor clientIP : String) :
    Calls C (issue s id actor clientIP) fun _ => True := by
  have renews : JobType.issue ≠ .issue → MayRenew C := fun other => absurd rfl other
  refine calls_get calm id fun found => ?_
  cases found with
  | error err => exact trivial
  | ok value =>
    dsimp only
    split
    · exact trivial
    · exact calls_any (issueExisting_calls calm s (fun _ => issues) renews id true _ actor clientIP)

theorem revokeLocked_calls (revokes : MayRevoke C) (value : Certificate) (actor clientIP : String) :
    Calls C (revokeLocked value actor clientIP) fun _ => True := by
  refine calls_calm calm trivial fun created => ?_
  cases created with
  | error err => exact trivial
  | ok job =>
    refine calls_calm calm trivial fun revoked => ?_
    cases revoked with
    | error refusal =>
      exact calls_calm calm trivial fun _ => calls_calm calm trivial fun _ => trivial
    | ok _ =>
      refine calls_call (revokes value.id) fun marked => ?_
      cases marked with
      | error err => exact trivial
      | ok _ =>
        refine calls_calm calm trivial fun _ => calls_calm calm trivial fun _ => ?_
        exact calls_get calm value.id fun _ => trivial

theorem revoke_calls (s : Service) (revokes : MayRevoke C) (id : Id) (actor clientIP : String) :
    Calls C (revoke s id actor clientIP) fun _ => True := by
  refine calls_get calm id fun found => ?_
  cases found with
  | error err => exact trivial
  | ok value =>
    dsimp only
    split
    · exact trivial
    · split
      · exact trivial
      · exact calls_locked calm _ trivial id (revokeLocked_calls calm revokes value actor clientIP)

theorem deleteRecord_calls (value : Certificate) (deleteFiles : Bool) (result : BackupResult)
    (actor clientIP : String) :
    Calls C (deleteRecord value deleteFiles result actor clientIP) fun _ => True := by
  refine calls_calm calm trivial fun deleted => ?_
  cases deleted with
  | error err => exact trivial
  | ok _ =>
    dsimp only
    split
    · refine Silent.bind (calls_publisher calm value.id _) fun removed _ => ?_
      cases removed with
      | error err => exact trivial
      | ok _ => exact calls_calm calm trivial fun _ => trivial
    · exact calls_calm calm trivial fun _ => trivial

theorem delete_calls (id : Id) (deleteFiles : Bool) (actor clientIP : String) :
    Calls C (delete id deleteFiles actor clientIP) fun _ => True := by
  refine calls_get calm id fun found => ?_
  cases found with
  | error err => exact trivial
  | ok value =>
    refine calls_locked calm _ trivial id ?_
    unfold deleteLocked
    split
    · refine Silent.bind (calls_publisher calm value.id _) fun backedUp _ => ?_
      obtain ⟨result, outcome⟩ := backedUp
      cases outcome with
      | error err =>
        refine calls_calm calm trivial fun audited => ?_
        cases audited <;> exact trivial
      | ok _ => exact deleteRecord_calls calm value true result actor clientIP
    · exact deleteRecord_calls calm value false _ actor clientIP

theorem issueCreated_calls (value : Certificate) (jobType : JobType)
    {engine : Certificate → Operation Obtained} (asks : ∀ c, Calls C (engine c) fun _ => True)
    (detail : List (String × Detail)) (actor clientIP : String) :
    Calls C (issueCreated value jobType engine detail actor clientIP) fun _ => True := by
  refine calls_calm calm trivial fun stored => ?_
  cases stored with
  | error err => exact trivial
  | ok stored =>
    refine calls_calm calm trivial fun created => ?_
    cases created with
    | error err => exact calls_calm calm trivial fun _ => trivial
    | ok job =>
      refine Silent.bind (asks stored) fun obtained _ => ?_
      cases obtained with
      | panicked => exact trivial
      | failed exit err =>
        exact calls_calm calm trivial fun _ => calls_calm calm trivial fun _ =>
          calls_calm calm trivial fun _ => trivial
      | material material =>
        refine calls_calm calm trivial fun now => ?_
        split
        · exact trivial
        · refine Silent.bind (calls_publisher calm stored.id _) fun published _ => ?_
          cases published with
          | error err =>
            exact calls_calm calm trivial fun _ => calls_calm calm trivial fun _ => trivial
          | ok _ =>
            refine calls_calm calm trivial fun marked => ?_
            cases marked with
            | error err => exact trivial
            | ok _ =>
              refine calls_calm calm trivial fun _ => calls_calm calm trivial fun _ => ?_
              exact calls_get calm stored.id fun _ => trivial

-- A goal about a program is otherwise reduced as far as the texts in it go.
attribute [local irreducible] trimSpace normalizeDomains

theorem challengeValues_calls (s : Service) (challengeType dnsCredentialID : String) :
    Calls C (challengeValues s challengeType dnsCredentialID) fun _ => True := by
  unfold challengeValues
  split
  · split
    · exact trivial
    · exact calls_perform (calm _ trivial)
  · split <;> exact trivial

theorem createACME_calls (s : Service) (request : CreateACMERequest) (actor clientIP : String) :
    Calls C (createACME s request actor clientIP) fun _ => True := by
  unfold createACME
  split
  · exact trivial
  · split
    · exact trivial
    · split
      · exact trivial
      · split
        · exact trivial
        · refine Silent.bind (challengeValues_calls calm s _ _) fun values _ => ?_
          cases values with
          | error err => exact trivial
          | ok values =>
            refine issueCreated_calls calm _ _ (fun value => ?_) _ _ _
            exact calls_calm calm trivial fun _ => trivial

theorem createSelfSigned_calls (s : Service) (request : CreateSelfSignedRequest)
    (actor clientIP : String) :
    Calls C (createSelfSigned s request actor clientIP) fun _ => True := by
  unfold createSelfSigned
  split
  · exact trivial
  · split
    · exact trivial
    · split
      · exact trivial
      · split
        · exact trivial
        · refine issueCreated_calls calm _ _ (fun _ => ?_) _ _ _
          split
          · exact calls_calm calm trivial fun _ => trivial
          · exact trivial

section Scans
variable (scans : ∀ e, ¬ Apart e → C e)
include scans

omit calm in
theorem calls_scan {e : Eff} {f : Ans e → Operation α} {Q : α → Prop} (about : ¬ Apart e)
    (rest : ∀ r, Calls C (f r) Q) : Calls C (Prog.perform e >>= f) Q :=
  calls_call (scans e about) rest

theorem startWorkers_calls (policy : Policy) (scan : Nat) (items : List Certificate) :
    Calls C (startWorkers policy scan items) fun _ => True := by
  induction items with
  | nil => exact trivial
  | cons item rest ih =>
    refine calls_calm calm trivial fun now => ?_
    split
    · exact calls_scan scans id fun _ => calls_scan scans id fun _ => ih
    · exact ih

theorem runRenewalScan_calls (policy : Policy) :
    Calls C (runRenewalScan policy) fun _ => True := by
  refine calls_calm calm trivial fun listed => ?_
  cases listed with
  | error err => exact trivial
  | ok values =>
    refine calls_scan scans id fun scan => ?_
    refine Silent.bind (startWorkers_calls calm scans policy scan values) fun _ _ => ?_
    refine calls_scan scans id fun _ => calls_scan scans id fun errors => ?_
    cases Error.joinAll errors <;> exact trivial

theorem renewalWorker_calls (s : Service) (renews : MayRenew C) (policy : Policy) (scan : Nat)
    (id : Id) : Calls C (renewalWorker s policy scan id) fun _ => True := by
  have done : Calls C (Prog.perform (Eff.workerDone scan id)) fun _ => True :=
    calls_perform (scans _ fun h => h)
  have leave : Calls C (do
      let _ ← Prog.perform (Eff.releaseSlot scan)
      Prog.perform (Eff.workerDone scan id)) fun _ => True :=
    calls_scan scans (fun h => h) fun _ => done
  refine calls_scan scans (fun h => h) fun acquired => ?_
  cases acquired with
  | false => exact done
  | true =>
    refine Silent.bind (renewalAttempts_calls calm s renews policy id _) fun attempts _ => ?_
    cases attempts with
    | panicked => exact trivial
    | cancelled => exact leave
    | ended result =>
      cases result with
      | none => exact leave
      | some renewErr =>
        dsimp only
        split
        · exact leave
        · exact calls_scan scans (fun h => h) fun _ => leave

end Scans

end Walk

/-- The operations that are neither a scan nor a goroutine of one. -/
def Ordinary : Request → Prop
  | .scan _ | .worker _ _ _ => False
  | _ => True

/-- The goroutines of a scan renew as a renewal does. -/
def Request.renews : Request → Prop
  | .renew _ _ _ _ | .worker _ _ _ => True
  | _ => False

def Request.issues : Request → Prop
  | .issue _ _ _ => True
  | _ => False

theorem programOf_calls (s : Service) {request : Request} {C : Eff → Prop}
    (calm : ∀ e, Calm e → C e) (scans : ¬ Ordinary request → ∀ e, ¬ Apart e → C e)
    (issues : Request.issues request → MayIssue C) (renews : Request.renews request → MayRenew C)
    (revokes : request.revokes → MayRevoke C) :
    Calls C (programOf s request) fun _ => True := by
  have void : ∀ {p : Operation (Outcome Certificate)}, (Calls C p fun _ => True) →
      Calls C (p >>= fun r => .ret r.void) fun _ => True :=
    fun h => Silent.bind h fun _ _ => trivial
  cases request with
  | list => exact calls_calm calm trivial fun _ => trivial
  | get id => exact calls_get calm id fun _ => trivial
  | readFile id fileName => exact Silent.bind (readFile_calls calm id fileName) fun _ _ => trivial
  | availableFiles id => exact Silent.bind (availableFiles_calls calm id) fun _ _ => trivial
  | update id request actor clientIP => exact void (update_calls calm id request actor clientIP)
  | createSelfSigned request actor clientIP =>
    exact void (createSelfSigned_calls calm s request actor clientIP)
  | createACME request actor clientIP => exact void (createACME_calls calm s request actor clientIP)
  | issue id actor clientIP => exact void (issue_calls calm s (issues trivial) id actor clientIP)
  | renew id force actor clientIP =>
    exact void (calls_any (renew_calls calm s (renews trivial) id force actor clientIP))
  | revoke id actor clientIP => exact void (revoke_calls calm s (revokes trivial) id actor clientIP)
  | delete id deleteFiles actor clientIP => exact delete_calls calm id deleteFiles actor clientIP
  | scan policy => exact runRenewalScan_calls calm (scans fun h => h) policy
  | worker policy scan id =>
    refine Silent.bind (renewalWorker_calls calm (scans fun h => h) s (renews trivial) policy scan id)
      fun _ _ => trivial

/-- What of the status of a certificate a request decides. -/
def Decides (request : Request) : Eff → Prop
  | .store (.setCertificateStatus _ status) =>
    status = .issuing ∧ Request.issues request ∨ status = .renewing ∧ Request.renews request ∨
      status = .revoked ∧ request.revokes
  | .store (.markCertificateRenewed _) => Request.renews request
  | _ => True

theorem programOf_decides (s : Service) (request : Request) :
    Calls (Decides request) (programOf s request) fun _ => True := by
  refine programOf_calls s (fun e calm => ?_) (fun _ e about => ?_) (fun issues _ => ?_)
    (fun renews => ⟨fun _ => ?_, fun _ => renews⟩) (fun revokes _ => ?_)
  · cases e with
    | store q => cases q <;> first | exact trivial | exact calm.elim
    | _ => exact trivial
  · cases e with
    | store q => exact absurd (by cases q <;> exact trivial) about
    | _ => exact trivial
  · exact Or.inl ⟨rfl, issues⟩
  · exact Or.inr (Or.inl ⟨rfl, renews⟩)
  · exact Or.inr (Or.inr ⟨rfl, revokes⟩)

theorem apart_of_calm {e : Eff} (calm : Calm e) : Apart e := by
  cases e with
  | store q => exact trivial
  | _ => exact calm

theorem programOf_apart (s : Service) {request : Request} (ordinary : Ordinary request) :
    Calls Apart (programOf s request) fun _ => True :=
  programOf_calls s (fun _ => apart_of_calm) (absurd ordinary) (fun _ _ => trivial)
    (fun _ => ⟨fun _ => trivial, fun _ => trivial⟩) fun _ _ => trivial

theorem renewalAttempts_apart (s : Service) (policy : Policy) (id : Id) (left : Nat) :
    Calls Apart (renewalAttempts s policy id left) (Equipped s .panicked) :=
  renewalAttempts_calls (fun _ => apart_of_calm) s ⟨fun _ => trivial, fun _ => trivial⟩ policy id left

end OperationCalls
