import CertMate.ServiceProtocol

/-!
# What an operation leaves behind

A status `issuing` or `renewing` and a job `running` are written at the
beginning of an operation and taken back at its end. An operation takes back
all it has written unless one of a few calls goes wrong.
-/
namespace Bookkeeping
open CertificateModel CallTrees ServiceWorld CertificateFiles CertificateService
open SqliteStore hiding exec
open DomainValidation (trimSpace)

/-- The status that an operation gives a certificate while it works on it. -/
def underWay (status : Status) : Bool := status = .issuing || status = .renewing

/-- What is remembered of an operation: whether it has stored a new record, what
it has read or stored last, whose status is under way, the job that is running,
what an engine has delivered, and whether a call has gone wrong. -/
structure Books where
  creating : Bool
  read : Option Certificate
  pending : Option Id
  job : Option Id
  metadata : Option Metadata
  harmed : Bool

def Books.new : Books := ⟨false, none, none, none, none, false⟩

def Books.clear (b : Books) : Prop := b.pending = none ∧ b.job = none

/-- Whether the work of a job of this type fails on a certificate of this mode
because the service was built without its engine. -/
def unequipped (s : Service) (jobType : JobType) (value : Certificate) : Bool :=
  !s.engine && value.mode = .selfSigned &&
    (jobType = .selfSignedIssue || jobType = .renew || jobType = .forceRenew)

def fitsJSON (m : Metadata) (now : Time) : Bool :=
  jsonTime m.notBefore && jsonTime m.notAfter && jsonTime (utc now)

/-- The answers after which something is not taken back. A renewal does not do
without its job; a creation does without neither a result nor its document. -/
def harms (s : Service) (b : Books) : (e : Eff) → Ans e → Bool
  | .store (.createJob run), .error _ => run.jobType = .renew || run.jobType = .forceRenew
  | .store (.createJob run), .ok _ => b.read.any (unequipped s run.jobType)
  | .store (.finishJob _ _ _ _ _), .error _ => true
  | .store (.markCertificateIssued _), .error _ => true
  | .store (.markCertificateRenewed _), .error _ => true
  | .store (.markCertificateFailed _ _), .error _ => true
  | .store (.setCertificateStatus _ status), .error _ => status = .revoked
  | .issueSelfSigned _ _, .ok none => b.creating
  | .issueACME _ _, .ok none => b.creating
  | .now, t => b.creating && b.metadata.any fun m => !fitsJSON m t
  | _, _ => false

def advance (b : Books) : (e : Eff) → Ans e → Books
  | .store (.certificate _), .ok value => { b with read := some value }
  | .store (.createCertificate _), .ok value =>
    { b with creating := true, read := some value, pending := some value.id }
  | .store (.setCertificateStatus id status), .ok _ =>
    if underWay status then { b with pending := some id } else b
  | .store (.markCertificateIssued _), .ok _ => { b with pending := none }
  | .store (.markCertificateRenewed _), .ok _ => { b with pending := none }
  | .store (.markCertificateFailed _ _), .ok _ => { b with pending := none }
  | .store (.createJob _), .ok job => { b with job := some job.id }
  | .store (.finishJob _ _ _ _ _), .ok _ => { b with job := none }
  | .issueSelfSigned _ _, .ok (some result) => { b with metadata := some result.metadata }
  | .issueACME _ _, .ok (some result) => { b with metadata := some result.metadata }
  | _, _ => b

def note (s : Service) (b : Books) (e : Eff) (r : Ans e) : Books :=
  { advance b e r with harmed := b.harmed || harms s b e r }

/-- A status is written for the certificate `target` after it was read with
another one; what is taken back is what was written. -/
def allows (target : Option Id) (b : Books) : Eff → Prop
  | .store (.certificate _) => b.pending = none
  | .store (.createCertificate value) =>
    target = none ∧ b.creating = false ∧ b.pending = none ∧ value.status = .issuing
  | .store (.setCertificateStatus id _) => target = some id ∧ b.pending = none ∧
      ∃ value, b.read = some value ∧ value.id = id ∧ underWay value.status = false
  | .store (.markCertificateIssued c) | .store (.markCertificateRenewed c) =>
    b.pending = some c.id
  | .store (.markCertificateFailed id _) => b.pending = some id
  | .store (.createJob run) => b.job = none ∧ run.status = .running
  | .store (.finishJob job status _ _ _) => b.job = some job ∧ status ≠ .running
  | .store (.updateCertificateSettings _ _ _ _ _) => False
  | .store (.deleteCertificateWithAudit _ _) => False
  | _ => True

/-- What every world answers. -/
def Honest : (e : Eff) → Ans e → Prop
  | .store (.certificate id), .ok value => value.id = id
  | .store (.createCertificate value), .ok stored => stored.mode = value.mode
  | _, _ => True

theorem exec_honest (env : Environment) (thread : Nat) (e : Eff) (w : World) :
    Honest e (exec env thread e w).1 := by
  cases e with
  | store q =>
    cases q with
    | certificate id =>
      have numbered := ServiceProtocol.exec_honest env thread (.store (.certificate id)) w
      generalize (exec env thread (.store (.certificate id)) w).1 = r at numbered ⊢
      cases r with
      | error err => trivial
      | ok value => exact numbered
    | createCertificate value =>
      change Honest (.store (.createCertificate value)) (SqliteStore.exec env.backend _ w.db).1
      cases answered : (SqliteStore.exec env.backend (.createCertificate value) w.db).1 with
      | error err => trivial
      | ok stored =>
        obtain ⟨rfl, -⟩ := createCertificate_ok answered
        exact rfl
    | _ => trivial
  | _ => trivial

/-- Everything was taken back unless a call has gone wrong. -/
def Squared (b : Books) : Prop := b.clear ↔ b.harmed = false

section Squared
variable {creating : Bool} {read : Option Certificate} {pending job : Option Id} {i : Id}
  {metadata : Option Metadata}

theorem squared_clear : Squared ⟨creating, read, none, none, metadata, false⟩ :=
  ⟨fun _ => rfl, fun _ => ⟨rfl, rfl⟩⟩

theorem squared_pending : Squared ⟨creating, read, some i, job, metadata, true⟩ :=
  ⟨(fun h => nomatch h.1), (fun h => nomatch h)⟩

theorem squared_job : Squared ⟨creating, read, pending, some i, metadata, true⟩ :=
  ⟨(fun h => nomatch h.2), (fun h => nomatch h)⟩

end Squared

section Operations
variable {s : Service} {target : Option Id}

-- A goal about a program is otherwise reduced as far as the texts in it go.
attribute [local irreducible] trimSpace

abbrev Keeps (s : Service) (target : Option Id) {α : Type} (p : Operation α) (b : Books)
    (Q : α → Books → Prop) : Prop :=
  Follows Honest (allows target) (note s) p b Q

/-- A call that may always be made and is not noted. -/
def Unnoted : Eff → Prop
  | .store (.createAuditEvent _) | .store .certificates => True
  | .store _ | .issueSelfSigned _ _ | .issueACME _ _ | .now => False
  | _ => True

theorem allows_unnoted {e : Eff} (h : Unnoted e) (b : Books) : allows target b e := by
  cases e with
  | store q =>
    cases q with
    | createAuditEvent | certificates => trivial
    | _ => exact h.elim
  | _ => trivial

theorem note_unnoted {e : Eff} (h : Unnoted e) (b : Books) (r : Ans e) : note s b e r = b := by
  have same : ∀ b : Books, { b with harmed := b.harmed || false } = b := by
    intro b
    rw [Bool.or_false]
  cases e with
  | store q => cases q <;> first | exact h.elim | exact same b
  | _ => first | exact h.elim | exact same b

theorem keeps_unnoted {α : Type} {e : Eff} {k : Ans e → Operation α} {b : Books}
    {Q : α → Books → Prop} (h : Unnoted e) (rest : ∀ r, Keeps s target (k r) b Q) :
    Keeps s target (Prog.perform e >>= k) b Q := by
  refine follows_call.mpr ⟨allows_unnoted h b, fun r _ => ?_⟩
  rw [note_unnoted h]
  exact rest r

theorem publisher_keeps {α : Type} (certificate : Id) (p : Files α) (b : Books) :
    Keeps s target (publisher certificate p) b fun _ b' => b' = b := by
  induction p with
  | ret a => exact rfl
  | call e k ih => exact keeps_unnoted trivial fun r => ih r

theorem failRenewal_keeps {value : Certificate} {job : Id} {creating : Bool}
    {read : Option Certificate} {metadata : Option Metadata} (exit : Int) (output : Bytes)
    (renewErr : Error) (eventType actor clientIP : String) :
    Keeps s target (failRenewal value job exit output renewErr eventType actor clientIP)
      ⟨creating, read, some value.id, some job, metadata, false⟩
      fun _ b => b.creating = creating ∧ Squared b := by
  refine follows_call.mpr ⟨⟨rfl, by decide⟩, fun finished _ => ?_⟩
  cases finished with
  | error err =>
    refine follows_call.mpr ⟨rfl, fun marked _ => ?_⟩
    cases marked with
    | error err => exact keeps_unnoted trivial fun _ => ⟨rfl, squared_job⟩
    | ok _ => exact keeps_unnoted trivial fun _ => ⟨rfl, squared_job⟩
  | ok _ =>
    refine follows_call.mpr ⟨rfl, fun marked _ => ?_⟩
    cases marked with
    | error err => exact keeps_unnoted trivial fun _ => ⟨rfl, squared_pending⟩
    | ok _ => exact keeps_unnoted trivial fun _ => ⟨rfl, squared_clear⟩

/-- The two calls that record new material. -/
def Marks (mark : Certificate → Operation (Except Error Unit)) : Prop :=
  mark = (fun c => store (.markCertificateIssued c)) ∨
    mark = fun c => store (.markCertificateRenewed c)

theorem mark_bind {α : Type} {mark : Certificate → Operation (Except Error Unit)}
    (marks : Marks mark) {c : Certificate} {creating : Bool} {read : Option Certificate}
    {job : Option Id} {metadata : Option Metadata} {f : Except Error Unit → Operation α}
    {Q : α → Books → Prop}
    (failed : ∀ err, Keeps s target (f (.error err))
      ⟨creating, read, some c.id, job, metadata, true⟩ Q)
    (marked : Keeps s target (f (.ok ())) ⟨creating, read, none, job, metadata, false⟩ Q) :
    Keeps s target (mark c >>= f) ⟨creating, read, some c.id, job, metadata, false⟩ Q := by
  rcases marks with rfl | rfl <;>
  · refine follows_call.mpr ⟨rfl, fun r _ => ?_⟩
    cases r with
    | error err => exact failed err
    | ok _ => exact marked

/-- The end of a successful publication, once the material is recorded. -/
theorem succeed_keeps {α : Type} {job id : Id} {creating : Bool} {read : Option Certificate}
    {metadata : Option Metadata} (exit : Int) (output : Bytes) (event : Event)
    {f : Except Error Certificate → α} :
    Keeps s target (do
        let _ ← store (.finishJob job .succeeded exit output [])
        let _ ← store (.createAuditEvent event)
        let found ← get id
        return f found)
      ⟨creating, read, none, some job, metadata, false⟩
      fun _ b => b.creating = creating ∧ Squared b := by
  refine follows_call.mpr ⟨⟨rfl, by decide⟩, fun finished _ => ?_⟩
  cases finished with
  | error err =>
    refine keeps_unnoted trivial fun _ => follows_call.mpr ⟨rfl, fun found _ => ?_⟩
    cases found <;> exact ⟨rfl, squared_job⟩
  | ok _ =>
    refine keeps_unnoted trivial fun _ => follows_call.mpr ⟨rfl, fun found _ => ?_⟩
    cases found <;> exact ⟨rfl, squared_clear⟩

theorem publishAndRecord_keeps {value : Certificate} {job : Id}
    {mark : Certificate → Operation (Except Error Unit)} (marks : Marks mark)
    {read : Option Certificate} {metadata : Option Metadata} (material : Material)
    (eventType actor clientIP : String) :
    Keeps s target (publishAndRecord value material job mark eventType actor clientIP)
      ⟨false, read, some value.id, some job, metadata, false⟩
      fun _ b => b.creating = false ∧ Squared b := by
  rw [publishAndRecord, Prog.perform_bind]
  refine follows_call.mpr ⟨trivial, fun now _ => ?_⟩
  split
  · exact failRenewal_keeps _ _ _ _ _ _
  · refine (publisher_keeps value.id _ _).bind ?_
    rintro published _ rfl
    cases published with
    | error err => exact failRenewal_keeps _ _ _ _ _ _
    | ok _ =>
      exact mark_bind (c := withMaterial value material) marks
        (fun _ => ⟨rfl, squared_pending⟩) (succeed_keeps _ _ _)

theorem finishIssue_keeps {value : Certificate} {job : Id}
    {mark : Certificate → Operation (Except Error Unit)} (marks : Marks mark)
    {read : Option Certificate} {metadata : Option Metadata} {obtained : Obtained}
    (sound : obtained ≠ .panicked) (eventType actor clientIP : String) :
    Keeps s target (finishIssue value job obtained mark eventType actor clientIP)
      ⟨false, read, some value.id, some job, metadata, false⟩
      fun _ b => b.creating = false ∧ Squared b := by
  cases obtained with
  | panicked => exact absurd rfl sound
  | failed exit err => exact failRenewal_keeps _ _ _ _ _ _
  | material material => exact publishAndRecord_keeps marks material _ _ _

theorem selfSignedObtained_sound (r : Except CommandFailure (Option SelfSignedResult)) :
    selfSignedObtained r ≠ .panicked := by
  rcases r with err | _ | result <;> exact (fun h => nomatch h)

theorem acmeObtained_sound (primaryDomain : String)
    (r : Except CommandFailure (Option ACMEResult)) :
    acmeObtained primaryDomain r ≠ .panicked := by
  rcases r with err | _ | result <;> exact (fun h => nomatch h)

/-- With its engine the service does not run into a nil pointer. -/
theorem renewMaterial_keeps {value : Certificate} {force : Bool}
    (equipped : value.mode = .selfSigned → s.engine = true) (b : Books) :
    Keeps s target (renewMaterial s value force) b
      fun obtained b' => b' = b ∧ obtained ≠ .panicked := by
  unfold renewMaterial
  split
  · rename_i mode
    rw [if_pos (equipped mode)]
    exact keeps_unnoted trivial fun r => ⟨rfl, selfSignedObtained_sound r⟩
  · split
    · split
      · split
        · refine keeps_unnoted trivial fun resolved => ?_
          cases resolved with
          | error err => exact ⟨rfl, (fun h => nomatch h)⟩
          | ok values => exact keeps_unnoted trivial fun r => ⟨rfl, acmeObtained_sound _ r⟩
        · exact ⟨rfl, (fun h => nomatch h)⟩
      · exact keeps_unnoted trivial fun r => ⟨rfl, acmeObtained_sound _ r⟩
    · exact ⟨rfl, (fun h => nomatch h)⟩
  · exact ⟨rfl, (fun h => nomatch h)⟩

theorem issueMaterial_keeps {value : Certificate} {read : Option Certificate}
    {pending job : Option Id} {metadata : Option Metadata} :
    Keeps s target (issueMaterial s value) ⟨false, read, pending, job, metadata, false⟩
      fun obtained b => (∃ metadata', b = ⟨false, read, pending, job, metadata', false⟩) ∧
        obtained ≠ .panicked := by
  unfold issueMaterial
  split
  · split
    · refine follows_call.mpr ⟨trivial, fun r _ => ⟨?_, selfSignedObtained_sound r⟩⟩
      rcases r with err | _ | result <;> exact ⟨_, rfl⟩
    · exact ⟨⟨_, rfl⟩, (fun h => nomatch h)⟩
  · split
    · split
      · split
        · refine keeps_unnoted trivial fun resolved => ?_
          cases resolved with
          | error err => exact ⟨⟨_, rfl⟩, (fun h => nomatch h)⟩
          | ok values =>
            refine follows_call.mpr ⟨trivial, fun r _ => ⟨?_, acmeObtained_sound _ r⟩⟩
            rcases r with err | _ | result <;> exact ⟨_, rfl⟩
        · exact ⟨⟨_, rfl⟩, (fun h => nomatch h)⟩
      · split
        · refine follows_call.mpr ⟨trivial, fun r _ => ⟨?_, acmeObtained_sound _ r⟩⟩
          rcases r with err | _ | result <;> exact ⟨_, rfl⟩
        · exact ⟨⟨_, rfl⟩, (fun h => nomatch h)⟩
    · exact ⟨⟨_, rfl⟩, (fun h => nomatch h)⟩
  · exact ⟨⟨_, rfl⟩, (fun h => nomatch h)⟩

theorem manualIssueAllowed_idle {status : Status} (h : manualIssueAllowed status = true) :
    underWay status = false := by
  cases status <;> first | rfl | cases h

theorem renewAllowed_idle {status : Status} (h : renewAllowed status = true) :
    underWay status = false := by
  cases status <;> first | rfl | cases h

theorem revokeAllowed_idle {status : Status} (h : revokeAllowed status = true) :
    underWay status = false := by
  cases status <;> first | rfl | cases h

theorem issueExistingCertificate_keeps {value : Certificate} {metadata : Option Metadata}
    (allowed : manualIssueAllowed value.status = true) (actor clientIP : String) :
    Keeps s (some value.id) (issueExistingCertificate s value actor clientIP)
      ⟨false, some value, none, none, metadata, false⟩
      fun _ b => b.creating = false ∧ Squared b := by
  unfold issueExistingCertificate
  split
  · exact ⟨rfl, squared_clear⟩
  · have idle := manualIssueAllowed_idle allowed
    refine follows_call.mpr ⟨⟨rfl, rfl, value, rfl, rfl, idle⟩, fun marked _ => ?_⟩
    cases marked with
    | error err => exact ⟨rfl, squared_clear⟩
    | ok _ =>
      refine follows_call.mpr ⟨⟨rfl, rfl⟩, fun created _ => ?_⟩
      cases created with
      | error err =>
        refine follows_call.mpr ⟨rfl, fun failed _ => ?_⟩
        cases failed with
        | error err => exact ⟨rfl, squared_pending⟩
        | ok _ => exact ⟨rfl, squared_clear⟩
      | ok job =>
        have equipped : note s ⟨false, some value, some value.id, none, metadata, false⟩
            (.store (.createJob (runningJob value.id .issue))) (.ok job) =
            ⟨false, some value, some value.id, some job.id, metadata, false⟩ := by
          simp [note, advance, harms, unequipped, runningJob]
        change Keeps s (some value.id) _ (note s ⟨false, some value, some value.id, none, metadata,
          false⟩ (.store (.createJob (runningJob value.id .issue))) (.ok job)) _
        rw [equipped]
        refine issueMaterial_keeps.bind ?_
        rintro obtained _ ⟨⟨metadata', rfl⟩, sound⟩
        exact finishIssue_keeps (Or.inl rfl) sound _ _ _

/-- The types of a renewal's job. -/
def Renewal (jobType : JobType) : Prop := jobType = .renew ∨ jobType = .forceRenew

/-- A renewal without its engine ends on a nil pointer. -/
theorem renewMaterial_unequipped {value : Certificate} {force : Bool}
    (mode : value.mode = .selfSigned) (missing : s.engine = false) :
    renewMaterial s value force = .ret .panicked := by
  unfold renewMaterial
  rw [mode, missing]
  rfl

theorem unequipped_renewal {jobType : JobType} (renewal : Renewal jobType) (value : Certificate) :
    unequipped s jobType value = (!s.engine && value.mode = .selfSigned) := by
  rcases renewal with rfl | rfl <;> simp [unequipped]

theorem renewLocked_keeps {value : Certificate} {metadata : Option Metadata} {force : Bool}
    {jobType : JobType} (renewal : Renewal jobType) (eventType actor clientIP : String) :
    Keeps s (some value.id) (renewLocked s value force jobType eventType actor clientIP)
      ⟨false, some value, none, none, metadata, false⟩
      fun _ b => b.creating = false ∧ Squared b := by
  unfold renewLocked
  split
  · exact ⟨rfl, squared_clear⟩
  · rename_i allowed
    have idle : underWay value.status = false := by
      refine renewAllowed_idle ?_
      simpa using allowed
    refine follows_call.mpr ⟨⟨rfl, rfl, value, rfl, rfl, idle⟩, fun marked _ => ?_⟩
    cases marked with
    | error err => exact ⟨rfl, squared_clear⟩
    | ok _ =>
      refine follows_call.mpr ⟨⟨rfl, rfl⟩, fun created _ => ?_⟩
      cases created with
      | error err =>
        have harmed : (decide (jobType = .renew) || decide (jobType = .forceRenew)) = true := by
          rcases renewal with rfl | rfl <;> rfl
        refine ⟨rfl, ?_⟩
        change Squared ⟨false, some value, some value.id, none, metadata,
          decide (jobType = .renew) || decide (jobType = .forceRenew)⟩
        rw [harmed]
        exact squared_pending
      | ok job =>
        change Keeps s (some value.id) _ ⟨false, some value, some value.id, some job.id, metadata,
          unequipped s jobType value⟩ _
        rw [unequipped_renewal renewal]
        by_cases equipped : value.mode = .selfSigned → s.engine = true
        · have whole : (!s.engine && decide (value.mode = .selfSigned)) = false := by
            cases engine : s.engine with
            | true => rfl
            | false =>
              rw [engine] at equipped
              simpa using fun mode => absurd (equipped mode) (by decide)
          rw [whole]
          refine (renewMaterial_keeps equipped _).bind ?_
          rintro obtained _ ⟨rfl, sound⟩
          exact finishIssue_keeps (Or.inr rfl) sound _ _ _
        · obtain ⟨mode, missing⟩ := Classical.not_imp.mp equipped
          have missing : s.engine = false := by simpa using missing
          rw [renewMaterial_unequipped mode missing, mode, missing]
          exact ⟨rfl, squared_pending⟩

theorem issueLocked_keeps {value : Certificate} {metadata : Option Metadata} {force : Bool}
    {jobType : JobType} (again : jobType = .issue ∨ Renewal jobType)
    (eventType actor clientIP : String) :
    Keeps s (some value.id) (issueLocked s value force jobType eventType actor clientIP)
      ⟨false, some value, none, none, metadata, false⟩
      fun _ b => b.creating = false ∧ Squared b := by
  unfold issueLocked
  split
  · split
    · exact ⟨rfl, squared_clear⟩
    · rename_i allowed
      exact issueExistingCertificate_keeps (by simpa using allowed) actor clientIP
  · rename_i other
    exact renewLocked_keeps (again.resolve_left other) _ _ _

/-- Taking the lock of the certificate is not noted, and neither is giving it back. -/
theorem locked_keeps {α : Type} {busy : α} {id : Id} {p : Operation α} {b : Books}
    {Q : α → Books → Prop} (refused : Q busy b) (h : Keeps s target p b Q) :
    Keeps s target (do
      let lock ← loadOrStore id
      match ← tryLock lock with
      | false => return busy
      | true =>
        let result ← p
        let _ ← unlock lock
        return result) b Q := by
  refine keeps_unnoted trivial fun lock => keeps_unnoted trivial fun taken => ?_
  cases taken with
  | false => exact refused
  | true => exact h.bind fun result b' ended => keeps_unnoted trivial fun _ => ended

theorem issueExisting_keeps {id : Id} {force : Bool} {jobType : JobType}
    (again : jobType = .issue ∨ Renewal jobType) {read : Option Certificate}
    {metadata : Option Metadata} (eventType actor clientIP : String) :
    Keeps s (some id) (issueExisting s id force jobType eventType actor clientIP)
      ⟨false, read, none, none, metadata, false⟩
      fun _ b => b.creating = false ∧ Squared b := by
  refine follows_call.mpr ⟨rfl, fun found honest => ?_⟩
  cases found with
  | error err => exact ⟨rfl, squared_clear⟩
  | ok value =>
    have numbered : value.id = id := honest
    rw [← numbered]
    exact locked_keeps ⟨rfl, squared_clear⟩ (issueLocked_keeps again _ _ _)

theorem renew_keeps {id : Id} {force : Bool} {read : Option Certificate}
    {metadata : Option Metadata} (actor clientIP : String) :
    Keeps s (some id) (renew s id force actor clientIP)
      ⟨false, read, none, none, metadata, false⟩
      fun _ b => b.creating = false ∧ Squared b := by
  unfold renew
  split
  · exact issueExisting_keeps (Or.inr (Or.inr rfl)) _ _ _
  · exact issueExisting_keeps (Or.inr (Or.inl rfl)) _ _ _

theorem issue_keeps {id : Id} {read : Option Certificate} {metadata : Option Metadata}
    (actor clientIP : String) :
    Keeps s (some id) (issue s id actor clientIP) ⟨false, read, none, none, metadata, false⟩
      fun _ b => b.creating = false ∧ Squared b := by
  refine follows_call.mpr ⟨rfl, fun found honest => ?_⟩
  cases found with
  | error err => exact ⟨rfl, squared_clear⟩
  | ok value =>
    change Keeps s (some id) (if !manualIssueAllowed value.status then _ else _) _ _
    split
    · exact ⟨rfl, squared_clear⟩
    · exact issueExisting_keeps (Or.inl rfl) _ _ _

theorem revokeLocked_keeps {value : Certificate} {metadata : Option Metadata}
    (allowed : revokeAllowed value.status = true) (actor clientIP : String) :
    Keeps s (some value.id) (revokeLocked value actor clientIP)
      ⟨false, some value, none, none, metadata, false⟩
      fun _ b => b.creating = false ∧ Squared b := by
  refine follows_call.mpr ⟨⟨rfl, rfl⟩, fun created _ => ?_⟩
  cases created with
  | error err => exact ⟨rfl, squared_clear⟩
  | ok job =>
    have equipped : unequipped s .revoke value = false := by simp [unequipped]
    change Keeps s (some value.id) _ ⟨false, some value, none, some job.id, metadata,
      unequipped s .revoke value⟩ _
    rw [equipped]
    refine keeps_unnoted trivial fun revoked => ?_
    cases revoked with
    | error refusal =>
      refine follows_call.mpr ⟨⟨rfl, by decide⟩, fun finished _ => ?_⟩
      cases finished with
      | error err => exact keeps_unnoted trivial fun _ => ⟨rfl, squared_job⟩
      | ok _ => exact keeps_unnoted trivial fun _ => ⟨rfl, squared_clear⟩
    | ok _ =>
      have idle := revokeAllowed_idle allowed
      refine follows_call.mpr ⟨⟨rfl, rfl, value, rfl, rfl, idle⟩, fun marked _ => ?_⟩
      cases marked with
      | error err => exact ⟨rfl, squared_job⟩
      | ok _ => exact succeed_keeps _ _ _

theorem revoke_keeps {id : Id} {read : Option Certificate} {metadata : Option Metadata}
    (actor clientIP : String) :
    Keeps s (some id) (revoke s id actor clientIP) ⟨false, read, none, none, metadata, false⟩
      fun _ b => b.creating = false ∧ Squared b := by
  refine follows_call.mpr ⟨rfl, fun found honest => ?_⟩
  cases found with
  | error err => exact ⟨rfl, squared_clear⟩
  | ok value =>
    have numbered : value.id = id := honest
    rw [← numbered]
    change Keeps s (some value.id) (if value.mode ≠ .acme ∨ !revokeAllowed value.status then _
      else _) _ _
    split
    · exact ⟨rfl, squared_clear⟩
    · rename_i allowed
      split
      · exact ⟨rfl, squared_clear⟩
      · refine locked_keeps ⟨rfl, squared_clear⟩ (revokeLocked_keeps ?_ actor clientIP)
        by_contra refused
        exact allowed (Or.inr (by simpa using refused))

/-- What the engine of a creation leaves. -/
def Delivered (read : Option Certificate) (pending job : Option Id) (obtained : Obtained)
    (b : Books) : Prop :=
  match obtained with
  | .panicked => ∃ metadata, b = ⟨true, read, pending, job, metadata, true⟩
  | .failed _ _ => ∃ metadata, b = ⟨true, read, pending, job, metadata, false⟩
  | .material material => b = ⟨true, read, pending, job, some material.metadata, false⟩

theorem metadataDocument_error {value : Certificate} {m : Metadata} {now : Time} {err : Error}
    (h : metadataDocument value m now = .error err) : fitsJSON m now = false := by
  unfold metadataDocument at h
  split at h
  · cases h
  · rename_i unfit
    exact Bool.eq_false_iff.mpr unfit

theorem metadataDocument_ok {value : Certificate} {m : Metadata} {now : Time}
    {document : FileSystem.Document} (h : metadataDocument value m now = .ok document) :
    fitsJSON m now = true := by
  unfold metadataDocument at h
  split at h
  · rename_i fits
    exact fits
  · cases h

theorem issueCreated_keeps {value : Certificate} {jobType : JobType} (first : ¬ Renewal jobType)
    (new : value.status = .issuing) {engine : Certificate → Operation Obtained}
    (delivers : ∀ stored job, stored.mode = value.mode → unequipped s jobType stored = false →
      ∀ metadata, Keeps s none (engine stored)
        ⟨true, some stored, some stored.id, some job, metadata, false⟩
        (Delivered (some stored) (some stored.id) (some job)))
    (missing : ∀ stored, unequipped s jobType stored = true → engine stored = .ret .panicked)
    {read : Option Certificate} {metadata : Option Metadata}
    (detail : List (String × Detail)) (actor clientIP : String) :
    Keeps s none (issueCreated value jobType engine detail actor clientIP)
      ⟨false, read, none, none, metadata, false⟩ fun _ => Squared := by
  refine follows_call.mpr ⟨⟨rfl, rfl, rfl, new⟩, fun stored honest => ?_⟩
  cases stored with
  | error err => exact squared_clear
  | ok stored =>
    refine follows_call.mpr ⟨⟨rfl, rfl⟩, fun created _ => ?_⟩
    cases created with
    | error err =>
      have harmless : (decide (jobType = .renew) || decide (jobType = .forceRenew)) = false := by
        simpa [Renewal] using first
      change Keeps s none _ ⟨true, some stored, some stored.id, none, metadata,
        decide (jobType = .renew) || decide (jobType = .forceRenew)⟩ _
      rw [harmless]
      refine follows_call.mpr ⟨rfl, fun failed _ => ?_⟩
      cases failed with
      | error err => exact squared_pending
      | ok _ => exact squared_clear
    | ok job =>
      change Keeps s none _ ⟨true, some stored, some stored.id, some job.id, metadata,
        unequipped s jobType stored⟩ _
      cases equipped : unequipped s jobType stored with
      | true =>
        dsimp only
        rw [missing stored equipped]
        exact squared_pending
      | false =>
        refine (delivers stored job.id honest equipped metadata).bind fun obtained b delivered => ?_
        cases obtained with
        | panicked =>
          obtain ⟨metadata', rfl⟩ := delivered
          exact squared_pending
        | failed exit err =>
          obtain ⟨metadata', rfl⟩ := delivered
          exact (failRenewal_keeps exit [] err "certificate.create" actor clientIP).mono
            fun _ _ ended => ended.2
        | material material =>
          cases delivered
          dsimp only
          rw [Prog.perform_bind]
          refine follows_call.mpr ⟨trivial, fun now _ => ?_⟩
          change Keeps s none _ ⟨true, some stored, some stored.id, some job.id,
            some material.metadata, !fitsJSON material.metadata now⟩ _
          split
          · rename_i err failed
            rw [metadataDocument_error failed]
            exact squared_pending
          · rename_i document made
            rw [metadataDocument_ok made]
            refine (publisher_keeps stored.id _ _).bind ?_
            rintro published _ rfl
            cases published with
            | error err =>
              refine follows_call.mpr ⟨⟨rfl, by decide⟩, fun finished _ => ?_⟩
              cases finished with
              | error err =>
                refine follows_call.mpr ⟨rfl, fun marked _ => ?_⟩
                cases marked <;> exact squared_job
              | ok _ =>
                refine follows_call.mpr ⟨rfl, fun marked _ => ?_⟩
                cases marked with
                | error err => exact squared_pending
                | ok _ => exact squared_clear
            | ok _ =>
              refine mark_bind (c := withMaterial stored material) (Or.inl rfl)
                (fun _ => squared_pending) ?_
              exact (succeed_keeps _ _ _).mono fun _ _ ended => ended.2

theorem createACME_keeps {request : CreateACMERequest} {read : Option Certificate}
    {metadata : Option Metadata} (actor clientIP : String) :
    Keeps s none (createACME s request actor clientIP)
      ⟨false, read, none, none, metadata, false⟩ fun _ => Squared := by
  unfold createACME
  split
  · exact squared_clear
  split
  · exact squared_clear
  split
  · exact squared_clear
  split
  · exact squared_clear
  have values : Keeps s none (challengeValues s request.challengeType request.dnsCredentialID)
      ⟨false, read, none, none, metadata, false⟩
      fun _ b => b = ⟨false, read, none, none, metadata, false⟩ := by
    unfold challengeValues
    split
    · split
      · exact rfl
      · exact keeps_unnoted trivial fun _ => rfl
    · split <;> exact rfl
  refine values.bind ?_
  rintro resolved _ rfl
  cases resolved with
  | error err => exact squared_clear
  | ok values =>
    refine issueCreated_keeps (by simp [Renewal]) rfl (fun stored job _ _ metadata => ?_)
      (fun stored h => ?_) _ _ _
    · refine follows_call.mpr ⟨trivial, fun r _ => ?_⟩
      rcases r with err | _ | result
      · exact ⟨metadata, rfl⟩
      · exact ⟨metadata, rfl⟩
      · exact rfl
    · simp [unequipped] at h

theorem createSelfSigned_keeps {request : CreateSelfSignedRequest} {read : Option Certificate}
    {metadata : Option Metadata} (actor clientIP : String) :
    Keeps s none (createSelfSigned s request actor clientIP)
      ⟨false, read, none, none, metadata, false⟩ fun _ => Squared := by
  unfold createSelfSigned
  split
  · exact squared_clear
  split
  · exact squared_clear
  split
  · exact squared_clear
  split
  · exact squared_clear
  refine issueCreated_keeps (by simp [Renewal]) rfl (fun stored job mode equipped metadata => ?_)
    (fun stored missing => ?_) _ _ _
  · have engine : s.engine = true := by
      have selfSigned : stored.mode = .selfSigned := mode
      simpa [unequipped, selfSigned] using equipped
    rw [if_pos engine]
    refine follows_call.mpr ⟨trivial, fun r _ => ?_⟩
    rcases r with err | _ | result
    · exact ⟨metadata, rfl⟩
    · exact ⟨metadata, rfl⟩
    · exact rfl
  · have engine : s.engine = false := by
      simp only [unequipped, Bool.and_eq_true, Bool.not_eq_true'] at missing
      exact missing.1.1
    rw [engine]
    rfl

end Operations

end Bookkeeping
