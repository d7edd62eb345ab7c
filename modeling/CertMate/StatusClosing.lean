import CertMate.Bookkeeping

/-!
# A status is taken back

An operation that sets `issuing` or `renewing` records an outcome before it gives the lock
back and before it ends, unless a few calls go wrong: the job of a renewal cannot be
recorded, the outcome itself cannot, or a creation is given nothing that it can put into
its document.
-/
namespace StatusClosing
open CertificateModel CallTrees ServiceWorld CertificateFiles CertificateService ServiceProtocol
open Bookkeeping (underWay Marks Renewal selfSignedObtained_sound acmeObtained_sound)
open SqliteStore hiding exec
open DomainValidation (trimSpace)

/-- A creation cannot make a JSON document of what its engine has answered: there is no
result, or a date of it cannot be written. -/
def Undated (result : Option Metadata) : Prop :=
  ∀ m, result = some m → jsonTime m.notBefore = false ∨ jsonTime m.notAfter = false

/-- The answers after which the operation does not take its status back. -/
def Spoils (creates : Prop) : (e : Eff) → Ans e → Prop
  | .store (.createJob run), .error _ => Renewal run.jobType
  | .store (.markCertificateIssued _), .error _ => True
  | .store (.markCertificateRenewed _), .error _ => True
  | .store (.markCertificateFailed _ _), .error _ => True
  | .issueSelfSigned _ _, .ok result => creates ∧ Undated (result.map (·.metadata))
  | .issueACME _ _, .ok result => creates ∧ Undated (result.map (·.metadata))
  | .now, t => creates ∧ jsonTime (utc t) = false
  | _, _ => False

/-- Whether the operation has set a status and not recorded an outcome since. -/
def note : Bool → (e : Eff) → Ans e → Bool
  | _, .store (.createCertificate _), .ok _ => true
  | pending, .store (.setCertificateStatus _ status), .ok _ => pending || underWay status
  | _, .store (.markCertificateIssued _), .ok _ => false
  | _, .store (.markCertificateRenewed _), .ok _ => false
  | _, .store (.markCertificateFailed _ _), .ok _ => false
  | pending, _, _ => pending

/-- The lock is not given back before the outcome is recorded. -/
def allows (pending : Bool) : Eff → Prop
  | .unlock _ => pending = false
  | _ => True

/-- The operation ends with its status taken back. -/
abbrev Closes (creates : Prop) {α : Type} (p : Operation α) (pending : Bool) : Prop :=
  Follows (fun e r => ¬ Spoils creates e r) allows note p pending fun _ pending => pending = false

/-- A call that sets no status and does not unlock. -/
def Quiet : Eff → Prop
  | .unlock _ | .store (.createCertificate _) | .store (.setCertificateStatus _ _)
  | .store (.markCertificateIssued _) | .store (.markCertificateRenewed _)
  | .store (.markCertificateFailed _ _) => False
  | _ => True

theorem allows_quiet {e : Eff} (quiet : Quiet e) (pending : Bool) : allows pending e := by
  cases e with
  | unlock lock => exact quiet.elim
  | _ => trivial

theorem note_quiet {e : Eff} (quiet : Quiet e) (pending : Bool) (r : Ans e) :
    note pending e r = pending := by
  cases e with
  | store q => cases q <;> first | exact quiet.elim | rfl
  | _ => rfl

section Walk
variable {creates : Prop} {α : Type} {pending : Bool}

-- A goal about a program is otherwise reduced as far as the texts in it go.
attribute [local irreducible] trimSpace

theorem quiet_call {e : Eff} {k : Ans e → Operation α} {Q : α → Bool → Prop} (quiet : Quiet e)
    (rest : ∀ r, ¬ Spoils creates e r →
      Follows (fun e r => ¬ Spoils creates e r) allows note (k r) pending Q) :
    Follows (fun e r => ¬ Spoils creates e r) allows note (Prog.perform e >>= k) pending Q := by
  refine follows_call.mpr ⟨allows_quiet quiet pending, fun r sound => ?_⟩
  rw [note_quiet quiet]
  exact rest r sound

/-- An outcome is recorded. -/
theorem closing_call {e : Eff} {k : Ans e → Operation α} (allowed : allows pending e)
    (records : ∀ r, ¬ Spoils creates e r → note pending e r = false)
    (rest : ∀ r, ¬ Spoils creates e r → Closes creates (k r) false) :
    Closes creates (Prog.perform e >>= k) pending := by
  refine follows_call.mpr ⟨allowed, fun r sound => ?_⟩
  rw [records r sound]
  exact rest r sound

theorem failed_call {id : Id} {message : Bytes} {k : Except Error Unit → Operation α}
    (rest : ∀ r, Closes creates (k r) false) :
    Closes creates (store (.markCertificateFailed id message) >>= k) pending := by
  refine closing_call trivial (fun r sound => ?_) fun r _ => rest r
  cases r with
  | error err => exact absurd trivial sound
  | ok _ => rfl

theorem mark_call {mark : Certificate → Operation (Except Error Unit)} (marks : Marks mark)
    {c : Certificate} {k : Except Error Unit → Operation α}
    (rest : Closes creates (k (.ok ())) false) : Closes creates (mark c >>= k) pending := by
  rcases marks with rfl | rfl <;>
  · refine closing_call trivial (fun r sound => ?_) fun r sound => ?_
    · cases r with
      | error err => exact absurd trivial sound
      | ok _ => rfl
    · cases r with
      | error err => exact absurd trivial sound
      | ok _ => exact rest

theorem publisher_call {β : Type} {certificate : Id} {p : Files β} {k : β → Operation α}
    (rest : ∀ b, Closes creates (k b) pending) :
    Closes creates (publisher certificate p >>= k) pending := by
  induction p with
  | ret b => exact rest b
  | call e q ih => exact quiet_call trivial fun r _ => ih r

theorem failRenewal_closes (value : Certificate) (job : Id) (exit : Int) (output : Bytes)
    (renewErr : Error) (eventType actor clientIP : String) :
    Closes creates (failRenewal value job exit output renewErr eventType actor clientIP) pending :=
  quiet_call trivial fun _ _ => failed_call fun _ => quiet_call trivial fun _ _ => rfl

theorem finishIssue_closes {value : Certificate} {job : Id} {obtained : Obtained}
    (sound : obtained ≠ .panicked) {mark : Certificate → Operation (Except Error Unit)}
    (marks : Marks mark) (eventType actor clientIP : String) :
    Closes creates (finishIssue value job obtained mark eventType actor clientIP) pending := by
  cases obtained with
  | panicked => exact absurd rfl sound
  | failed exit err => exact failRenewal_closes _ _ _ _ _ _ _ _
  | material material =>
    refine quiet_call trivial fun now _ => ?_
    split
    · exact failRenewal_closes _ _ _ _ _ _ _ _
    · refine publisher_call fun published => ?_
      cases published with
      | error err => exact failRenewal_closes _ _ _ _ _ _ _ _
      | ok _ =>
        refine mark_call marks (quiet_call trivial fun _ _ => quiet_call trivial fun _ _ => ?_)
        exact quiet_call trivial fun _ _ => rfl

section Engine
variable {s : Service} (engine : s.engine = true)
include engine

theorem renewMaterial_call {value : Certificate} {force : Bool} {k : Obtained → Operation α}
    (rest : ∀ obtained, obtained ≠ .panicked → Closes creates (k obtained) pending) :
    Closes creates (renewMaterial s value force >>= k) pending := by
  unfold renewMaterial
  split
  · rw [if_pos engine]
    exact quiet_call trivial fun r _ => rest _ (selfSignedObtained_sound r)
  · split
    · split
      · split
        · refine quiet_call trivial fun resolved _ => ?_
          cases resolved with
          | error err => exact rest _ (fun h => nomatch h)
          | ok values => exact quiet_call trivial fun r _ => rest _ (acmeObtained_sound _ r)
        · exact rest _ (fun h => nomatch h)
      · exact quiet_call trivial fun r _ => rest _ (acmeObtained_sound _ r)
    · exact rest _ (fun h => nomatch h)
  · exact rest _ (fun h => nomatch h)

omit engine in
theorem issueMaterial_call {value : Certificate} {k : Obtained → Operation α}
    (rest : ∀ obtained, obtained ≠ .panicked → Closes creates (k obtained) pending) :
    Closes creates (issueMaterial s value >>= k) pending := by
  unfold issueMaterial
  split
  · split
    · exact quiet_call trivial fun r _ => rest _ (selfSignedObtained_sound r)
    · exact rest _ (fun h => nomatch h)
  · split
    · split
      · split
        · refine quiet_call trivial fun resolved _ => ?_
          cases resolved with
          | error err => exact rest _ (fun h => nomatch h)
          | ok values => exact quiet_call trivial fun r _ => rest _ (acmeObtained_sound _ r)
        · exact rest _ (fun h => nomatch h)
      · split
        · exact quiet_call trivial fun r _ => rest _ (acmeObtained_sound _ r)
        · exact rest _ (fun h => nomatch h)
    · exact rest _ (fun h => nomatch h)
  · exact rest _ (fun h => nomatch h)

omit engine in
theorem issueExistingCertificate_closes (value : Certificate) (actor clientIP : String) :
    Closes creates (issueExistingCertificate s value actor clientIP) false := by
  unfold issueExistingCertificate
  split
  · exact rfl
  · refine follows_call.mpr ⟨trivial, fun marked _ => ?_⟩
    cases marked with
    | error err => exact rfl
    | ok _ =>
      refine quiet_call trivial fun created _ => ?_
      cases created with
      | error err => exact failed_call fun _ => rfl
      | ok job =>
        exact issueMaterial_call fun obtained sound => finishIssue_closes sound (Or.inl rfl) _ _ _

theorem renewLocked_closes {value : Certificate} {force : Bool} {jobType : JobType}
    (renewal : Renewal jobType) (eventType actor clientIP : String) :
    Closes creates (renewLocked s value force jobType eventType actor clientIP) false := by
  unfold renewLocked
  split
  · exact rfl
  · refine follows_call.mpr ⟨trivial, fun marked _ => ?_⟩
    cases marked with
    | error err => exact rfl
    | ok _ =>
      refine quiet_call trivial fun created sound => ?_
      cases created with
      | error err => exact absurd renewal sound
      | ok job =>
        exact renewMaterial_call engine fun obtained sound =>
          finishIssue_closes sound (Or.inr rfl) _ _ _

theorem issueLocked_closes {value : Certificate} {force : Bool} {jobType : JobType}
    (again : jobType = .issue ∨ Renewal jobType) (eventType actor clientIP : String) :
    Closes creates (issueLocked s value force jobType eventType actor clientIP) false := by
  unfold issueLocked
  split
  · split
    · exact rfl
    · exact issueExistingCertificate_closes value actor clientIP
  · rename_i other
    exact renewLocked_closes engine (again.resolve_left other) _ _ _

omit engine in
theorem locked_closes {busy : α} {id : Id} {p : Operation α} (h : Closes creates p false) :
    Closes creates (do
      let lock ← loadOrStore id
      match ← tryLock lock with
      | false => return busy
      | true =>
        let result ← p
        let _ ← unlock lock
        return result) false := by
  refine quiet_call trivial fun lock _ => quiet_call trivial fun taken _ => ?_
  cases taken with
  | false => exact rfl
  | true =>
    refine h.bind fun result pending closed => ?_
    exact follows_call.mpr ⟨closed, fun _ _ => closed⟩

theorem issueExisting_closes {id : Id} {force : Bool} {jobType : JobType}
    (again : jobType = .issue ∨ Renewal jobType) (eventType actor clientIP : String) :
    Closes creates (issueExisting s id force jobType eventType actor clientIP) false := by
  refine quiet_call trivial fun found _ => ?_
  cases found with
  | error err => exact rfl
  | ok value => exact locked_closes (issueLocked_closes engine again _ _ _)

theorem renew_closes (id : Id) (force : Bool) (actor clientIP : String) :
    Closes creates (renew s id force actor clientIP) false := by
  unfold renew
  split
  · exact issueExisting_closes engine (Or.inr (Or.inr rfl)) _ _ _
  · exact issueExisting_closes engine (Or.inr (Or.inl rfl)) _ _ _

theorem issue_closes (id : Id) (actor clientIP : String) :
    Closes creates (issue s id actor clientIP) false := by
  refine quiet_call trivial fun found _ => ?_
  cases found with
  | error err => exact rfl
  | ok value =>
    change Closes creates (if !manualIssueAllowed value.status then _ else _) _
    split
    · exact rfl
    · exact issueExisting_closes engine (Or.inl rfl) _ _ _

omit engine in
theorem revokeLocked_closes (value : Certificate) (actor clientIP : String) :
    Closes creates (revokeLocked value actor clientIP) false := by
  refine quiet_call trivial fun created _ => ?_
  cases created with
  | error err => exact rfl
  | ok job =>
    refine quiet_call trivial fun revoked _ => ?_
    cases revoked with
    | error refusal => exact quiet_call trivial fun _ _ => quiet_call trivial fun _ _ => rfl
    | ok _ =>
      refine follows_call.mpr ⟨trivial, fun marked _ => ?_⟩
      cases marked with
      | error err => exact rfl
      | ok _ =>
        refine quiet_call trivial fun _ _ => quiet_call trivial fun _ _ => ?_
        exact quiet_call trivial fun _ _ => rfl

omit engine in
theorem revoke_closes (id : Id) (actor clientIP : String) :
    Closes creates (revoke s id actor clientIP) false := by
  refine quiet_call trivial fun found _ => ?_
  cases found with
  | error err => exact rfl
  | ok value =>
    change Closes creates (if value.mode ≠ .acme ∨ !revokeAllowed value.status then _ else _) _
    split
    · exact rfl
    · split
      · exact rfl
      · exact locked_closes (revokeLocked_closes value actor clientIP)

theorem renewalAttempt_closes (id : Id) {again : Error → Operation Attempts}
    (next : ∀ err, Closes creates (again err) false) :
    Closes creates (renewalAttempt s id again) false := by
  refine (renew_closes engine id false "scheduler" "").bind fun renewed pending closed => ?_
  subst closed
  cases renewed with
  | ok value => exact rfl
  | panicked => exact rfl
  | error renewErr =>
    dsimp only
    split
    · exact rfl
    · exact next renewErr

theorem renewalAttempts_closes (policy : Policy) (id : Id) (left : Nat) :
    Closes creates (renewalAttempts s policy id left) false := by
  induction left with
  | zero => exact renewalAttempt_closes engine id fun _ => rfl
  | succ left ih =>
    refine renewalAttempt_closes engine id fun _ => quiet_call trivial fun waited _ => ?_
    cases waited with
    | false => exact rfl
    | true => exact ih

theorem renewalWorker_closes (policy : Policy) (scan : Nat) (id : Id) :
    Closes creates (renewalWorker s policy scan id) false := by
  have done : Closes creates (Prog.perform (Eff.workerDone scan id)) false :=
    ⟨trivial, fun _ _ => rfl⟩
  refine quiet_call trivial fun acquired _ => ?_
  cases acquired with
  | false => exact done
  | true =>
    refine (renewalAttempts_closes engine policy id _).bind fun attempts pending closed => ?_
    subst closed
    cases attempts with
    | panicked => exact rfl
    | cancelled => exact quiet_call trivial fun _ _ => done
    | ended result =>
      cases result with
      | none => exact quiet_call trivial fun _ _ => done
      | some renewErr =>
        dsimp only
        split
        · exact quiet_call trivial fun _ _ => done
        · exact quiet_call trivial fun _ _ => quiet_call trivial fun _ _ => done

end Engine

/-- What the engine of a creation hands on. -/
def Dated : Obtained → Prop
  | .panicked => False
  | .failed _ _ => True
  | .material material => jsonTime material.metadata.notBefore = true ∧
      jsonTime material.metadata.notAfter = true

theorem dated_of_sound {result : Option Metadata} (sound : ¬ Undated result) :
    ∃ m, result = some m ∧ jsonTime m.notBefore = true ∧ jsonTime m.notAfter = true := by
  unfold Undated at sound
  simp only [not_forall, not_or, Bool.not_eq_false] at sound
  obtain ⟨m, there, before, after⟩ := sound
  exact ⟨m, there, before, after⟩

theorem issueCreated_closes {value : Certificate} {jobType : JobType}
    {engine : Certificate → Operation Obtained} (created : creates)
    (delivers : ∀ stored, Follows (fun e r => ¬ Spoils creates e r) allows note (engine stored) true
      fun obtained pending => pending = true ∧ Dated obtained)
    (detail : List (String × Detail)) (actor clientIP : String) :
    Closes creates (issueCreated value jobType engine detail actor clientIP) false := by
  refine follows_call.mpr ⟨trivial, fun stored _ => ?_⟩
  cases stored with
  | error err => exact rfl
  | ok stored =>
    refine quiet_call trivial fun recorded _ => ?_
    cases recorded with
    | error err => exact failed_call fun _ => rfl
    | ok job =>
      refine (delivers stored).bind fun obtained pending ⟨same, dated⟩ => ?_
      subst same
      cases obtained with
      | panicked => exact dated.elim
      | failed exit err =>
        refine quiet_call trivial fun _ _ => failed_call fun _ => ?_
        exact quiet_call trivial fun _ _ => rfl
      | material material =>
        refine quiet_call trivial fun now encodes => ?_
        have clock : jsonTime (utc now) = true := by
          by_contra unfit
          exact encodes ⟨created, by simpa using unfit⟩
        split
        · rename_i err failed
          have unfit := Bookkeeping.metadataDocument_error failed
          simp [Bookkeeping.fitsJSON, dated.1, dated.2, clock] at unfit
        · refine publisher_call fun published => ?_
          cases published with
          | error err => exact quiet_call trivial fun _ _ => failed_call fun _ => rfl
          | ok _ =>
            refine mark_call (Or.inl rfl) (quiet_call trivial fun _ _ => ?_)
            exact quiet_call trivial fun _ _ => quiet_call trivial fun _ _ => rfl

theorem createACME_closes (created : creates) (s : Service) (request : CreateACMERequest)
    (actor clientIP : String) : Closes creates (createACME s request actor clientIP) false := by
  unfold createACME
  split
  · exact rfl
  split
  · exact rfl
  split
  · exact rfl
  split
  · exact rfl
  have values : Closes creates (challengeValues s request.challengeType request.dnsCredentialID)
      false := by
    unfold challengeValues
    split
    · split
      · exact rfl
      · exact ⟨trivial, fun _ _ => rfl⟩
    · split <;> exact rfl
  refine values.bind fun resolved pending closed => ?_
  subst closed
  cases resolved with
  | error err => exact rfl
  | ok values =>
    refine issueCreated_closes created (fun stored => ?_) _ _ _
    refine quiet_call trivial fun r sound => ?_
    cases r with
    | error err => exact ⟨rfl, trivial⟩
    | ok result =>
      obtain ⟨m, there, dated⟩ := dated_of_sound fun undated => sound ⟨created, undated⟩
      obtain ⟨result, rfl, rfl⟩ := Option.map_eq_some_iff.mp there
      exact ⟨rfl, dated⟩

theorem createSelfSigned_closes (created : creates) {s : Service} (engine : s.engine = true)
    (request : CreateSelfSignedRequest) (actor clientIP : String) :
    Closes creates (createSelfSigned s request actor clientIP) false := by
  unfold createSelfSigned
  split
  · exact rfl
  split
  · exact rfl
  split
  · exact rfl
  split
  · exact rfl
  refine issueCreated_closes created (fun stored => ?_) _ _ _
  refine quiet_call trivial fun r sound => ?_
  cases r with
  | error err => exact ⟨rfl, trivial⟩
  | ok result =>
    obtain ⟨m, there, dated⟩ := dated_of_sound fun undated => sound ⟨created, undated⟩
    obtain ⟨result, rfl, rfl⟩ := Option.map_eq_some_iff.mp there
    exact ⟨rfl, dated⟩

end Walk

/-- The operations that set a status, or `revoked`. -/
def works : Request → Prop
  | .createSelfSigned _ _ _ | .createACME _ _ _ | .issue _ _ _ | .renew _ _ _ _ | .revoke _ _ _
  | .worker _ _ _ => True
  | _ => False

theorem programOf_closes {s : Service} (engine : s.engine = true) {request : Request}
    (working : works request) : Closes request.creates (programOf s request) false := by
  have void : ∀ {α : Type} {p : Operation α} {f : α → Outcome Unit}, Closes request.creates p false →
      Closes request.creates (p >>= fun r => .ret (f r)) false :=
    fun h => h.bind fun _ _ closed => closed
  cases request with
  | createSelfSigned r actor clientIP => exact void (createSelfSigned_closes trivial engine r _ _)
  | createACME r actor clientIP => exact void (createACME_closes trivial s r _ _)
  | issue id actor clientIP => exact void (issue_closes engine id _ _)
  | renew id force actor clientIP => exact void (renew_closes engine id force _ _)
  | revoke id actor clientIP => exact void (revoke_closes id _ _)
  | worker policy scan id => exact void (renewalWorker_closes engine policy scan id)
  | _ => exact working.elim

end StatusClosing
