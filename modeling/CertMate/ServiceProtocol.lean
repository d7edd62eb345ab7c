import CertMate.CertificateService
import CertMate.PublishProtocol

/-!
# What an operation may do next

How far an operation on a certificate has come can be read off the answers it
was given: what it has read, which lock it holds, what an engine has delivered
and how far the publication is. Every call of every operation is one that this
allows.
-/
namespace ServiceProtocol
open CertificateModel DomainValidation CallTrees SqliteStore ServiceWorld CertificateFiles
  CertificateService
open PublishProtocol (Progress Quiet)

/-- The entry points of the service, and the goroutines of a scan. -/
inductive Request where
  | list
  | get (id : Id)
  | readFile (id : Id) (fileName : String)
  | availableFiles (id : Id)
  | update (id : Id) (request : UpdateRequest) (actor clientIP : String)
  | createSelfSigned (request : CreateSelfSignedRequest) (actor clientIP : String)
  | createACME (request : CreateACMERequest) (actor clientIP : String)
  | issue (id : Id) (actor clientIP : String)
  | renew (id : Id) (force : Bool) (actor clientIP : String)
  | revoke (id : Id) (actor clientIP : String)
  | delete (id : Id) (deleteFiles : Bool) (actor clientIP : String)
  | scan (policy : Policy)
  | worker (policy : Policy) (scan : Nat) (id : Id)
  deriving DecidableEq, Repr

def Request.creates : Request → Prop
  | .createSelfSigned _ _ _ | .createACME _ _ _ => True
  | _ => False

def Request.revokes : Request → Prop
  | .revoke _ _ _ => True
  | _ => False

/-- `Delete` with `deleteFiles`. -/
def Request.clears : Request → Prop
  | .delete _ true _ _ => True
  | _ => False

/-- What the operation wants of the certificate it has read. -/
def Request.gate (request : Request) (value : Certificate) : Bool :=
  match request with
  | .issue _ _ _ => manualIssueAllowed value.status
  | .renew _ _ _ _ | .worker _ _ _ => renewAllowed value.status
  | .revoke _ _ _ => value.mode = .acme && revokeAllowed value.status
  | _ => false

/-- The program behind a request; of its answer only the kind is kept. -/
def programOf (s : Service) : Request → Operation (Outcome Unit)
  | .list => list >>= fun r => .ret (answer r).void
  | .get id => get id >>= fun r => .ret (answer r).void
  | .readFile id fileName => readFile id fileName >>= fun r => .ret (answer r).void
  | .availableFiles id => availableFiles id >>= fun r => .ret (answer r).void
  | .update id request actor clientIP => update id request actor clientIP >>= fun r => .ret r.void
  | .createSelfSigned request actor clientIP =>
    createSelfSigned s request actor clientIP >>= fun r => .ret r.void
  | .createACME request actor clientIP =>
    createACME s request actor clientIP >>= fun r => .ret r.void
  | .issue id actor clientIP => issue s id actor clientIP >>= fun r => .ret r.void
  | .renew id force actor clientIP => renew s id force actor clientIP >>= fun r => .ret r.void
  | .revoke id actor clientIP => revoke s id actor clientIP >>= fun r => .ret r.void
  | .delete id deleteFiles actor clientIP => delete id deleteFiles actor clientIP
  | .scan policy => runRenewalScan policy
  | .worker policy scan id => renewalWorker s policy scan id >>= fun _ => .ret (.ok ())

/-- `working` covers everything from the job record to the end of the
publication; a creation works without a lock. -/
inductive Phase where
  | idle
  | read (value : Certificate)
  | found (value : Certificate) (lock : Nat)
  | held (value : Certificate) (lock : Nat)
  | marked (value : Certificate) (lock : Option Nat)
  | working (value : Certificate) (lock : Option Nat) (got : Option Material) (progress : Progress)
  | settled (value : Certificate) (lock : Option Nat)
  | revoking (value : Certificate) (lock : Nat)
  | revoked (value : Certificate) (lock : Nat)
  | removing (value : Certificate) (lock : Nat) (cleared : Bool)
  | cleared (value : Certificate)

/-- A publication of the material, as the certificate asks for it. -/
def Matches (value : Certificate) (material : Material) (p : Payload) : Prop :=
  ∃ document, p = payload material document value.createRenewedMarker

/-- A publication that is over and has left the target as it was, or lost it. -/
def Abandoned (progress : Progress) : Prop :=
  progress = .checking ∨ progress = .spoiled ∨ progress = .restored ∨ progress = .lost

/-- The calls of `Remove`. -/
def removesAt (safeName : String) (e : FileSystem.Call) : Prop :=
  safeDirectory safeName = true ∧
    (e = .op (.lstat (targetOf safeName)) ∨ e = .op (.removeAll (targetOf safeName)))

def allowsFile (request : Request) (phase : Phase) (certificate : Id) (e : FileSystem.Call) : Prop :=
  match phase with
  | .working value _ (some material) progress =>
    certificate = value.id ∧ safeDirectory value.outputDirectory = true ∧
      ∃ p, Matches value material p ∧ PublishProtocol.allows value.outputDirectory p progress e
  | .removing value _ _ => request.clears ∧ removesAt value.outputDirectory e
  | _ => Quiet e

def allowsQuery (request : Request) (phase : Phase) : Query → Prop
  | .certificate _ | .certificates | .createAuditEvent _ | .finishJob _ _ _ _ _
  | .updateCertificateSettings _ _ _ _ _ => True
  | .createCertificate value => phase = .idle ∧ request.creates ∧ value.status = .issuing
  | .setCertificateStatus id status =>
    match phase with
    | .held value _ => id = value.id ∧ request.gate value = true ∧
        (status = .renewing ∨ status = .issuing)
    | .revoked value _ => id = value.id ∧ status = .revoked
    | _ => False
  | .createJob run =>
    match phase with
    | .held value _ =>
      run.certificateID = some value.id ∧ request.gate value = true ∧ request.revokes
    | .marked value _ => run.certificateID = some value.id
    | _ => False
  | .markCertificateFailed id _ =>
    match phase with
    | .marked value _ => id = value.id
    | .working value _ _ progress => id = value.id ∧ Abandoned progress
    | _ => False
  | .markCertificateIssued c | .markCertificateRenewed c =>
    match phase with
    | .working value _ (some material) .released => c = withMaterial value material
    | _ => False
  | .deleteCertificateWithAudit id event =>
    match phase with
    | .held value _ => id = value.id ∧ event.certificateID = some value.id
    | _ => False

/-- The lock a phase has taken. -/
def Phase.lock : Phase → Option Nat
  | .held _ lock | .revoking _ lock | .revoked _ lock | .removing _ lock _ => some lock
  | .marked _ lock | .working _ lock _ _ | .settled _ lock => lock
  | _ => none

/-- The lock that a phase has looked up. -/
def Phase.pointer : Phase → Option Nat
  | .found _ lock => some lock
  | phase => phase.lock

/-- The certificate as the operation has read or created it. -/
def Phase.value : Phase → Option Certificate
  | .idle => none
  | .read value | .found value _ | .held value _ | .marked value _ | .working value _ _ _
  | .settled value _ | .revoking value _ | .revoked value _ | .removing value _ _
  | .cleared value => some value

/-- The certificate whose record cannot go away while the phase lasts. -/
def Phase.attached : Phase → Option Certificate
  | .working value (some _) _ _ | .revoking value _ | .revoked value _ => some value
  | _ => none

/-- The certificate whose record the operation has deleted. -/
def Phase.gone : Phase → Option Certificate
  | .removing value _ _ | .cleared value => some value
  | _ => none

/-- The certificate that the operation is creating. -/
def Phase.creating : Phase → Option Certificate
  | .marked value none | .working value none _ _ | .settled value none => some value
  | _ => none

/-- A phase in which nothing is left to be recorded. -/
def Phase.mayLeave : Phase → Prop
  | .revoked _ _ => False
  | _ => True

/-- A phase in which no publication is under way or waits to be recorded. -/
def Phase.atRest : Phase → Prop
  | .working _ _ _ progress => progress = .checking
  | _ => True

def allowsEngine (phase : Phase) (certificate : Id) : Prop :=
  ∃ value lock, phase = .working value lock none .checking ∧ certificate = value.id

def allows (request : Request) (phase : Phase) : Eff → Prop
  | .store q => allowsQuery request phase q
  | .file certificate e => allowsFile request phase certificate e
  | .loadOrStore certificate => ∃ value, phase = .read value ∧ certificate = value.id
  | .tryLock lock => ∃ value, phase = .found value lock
  | .unlock lock => phase.lock = some lock ∧ phase.mayLeave ∧ phase.atRest
  | .dropLock certificate =>
    ∃ value lock cleared, phase = .removing value lock cleared ∧ certificate = value.id
  | .issueSelfSigned certificate _ | .renewSelfSigned certificate _
  | .issueACME certificate _ | .renewACME certificate _ => allowsEngine phase certificate
  | .revokeACME certificate _ =>
    ∃ value lock, phase = .revoking value lock ∧ certificate = value.id
  | _ => True

/-- What a delete knows of its directory after a call. -/
def noteRemoval (cleared : Bool) : (e : FileSystem.Call) → FileSystem.Answer e → Bool
  | .op (.removeAll _), .ok () => true
  | .op (.removeAll _), .error _ => false
  | .op (.lstat _), .ok _ => false
  | .op (.lstat _), .error err => isNotExist err
  | _, _ => cleared

def note : Phase → (e : Eff) → Ans e → Phase
  | .idle, .store (.certificate _), .ok value => .read value
  | .idle, .store (.createCertificate _), .ok value => .marked value none
  | .read _, .store (.certificate _), .ok value => .read value
  | .read value, .loadOrStore _, lock => .found value lock
  | .found value lock, .tryLock _, true => .held value lock
  | .found _ _, .tryLock _, false => .idle
  | .held value lock, .store (.setCertificateStatus _ _), .ok () => .marked value (some lock)
  | .held value lock, .store (.createJob _), .ok _ => .revoking value lock
  | .held value lock, .store (.deleteCertificateWithAudit _ _), .ok () => .removing value lock false
  | .held _ _, .unlock _, _ => .idle
  | .marked value lock, .store (.createJob _), .ok _ => .working value lock none .checking
  | .marked value lock, .store (.markCertificateFailed _ _), _ => .settled value lock
  | .marked _ _, .unlock _, _ => .idle
  | .working value lock _ progress, .issueSelfSigned _ _, .ok (some result) =>
    .working value lock (some (.ofSelfSigned result)) progress
  | .working value lock _ progress, .renewSelfSigned _ _, .ok (some result) =>
    .working value lock (some (.ofSelfSigned result)) progress
  | .working value lock _ progress, .issueACME _ _, .ok (some result) =>
    .working value lock (some (.ofACME result)) progress
  | .working value lock _ progress, .renewACME _ _, .ok (some result) =>
    .working value lock (some (.ofACME result)) progress
  | .working value lock got progress, .file _ e, r =>
    .working value lock got (PublishProtocol.note progress e r)
  | .working value lock _ _, .store (.markCertificateIssued _), _ => .settled value lock
  | .working value lock _ _, .store (.markCertificateRenewed _), _ => .settled value lock
  | .working value lock _ _, .store (.markCertificateFailed _ _), _ => .settled value lock
  | .working _ _ _ _, .unlock _, _ => .idle
  | .settled _ _, .unlock _, _ => .idle
  | .revoking value lock, .revokeACME _ _, .ok () => .revoked value lock
  | .revoking value lock, .revokeACME _ _, .error _ => .settled value (some lock)
  | .revoking _ _, .unlock _, _ => .idle
  | .revoked value lock, .store (.setCertificateStatus _ _), _ => .settled value (some lock)
  | .revoked _ _, .unlock _, _ => .idle
  | .removing value lock cleared, .file _ e, r => .removing value lock (noteRemoval cleared e r)
  | .removing value _ cleared, .unlock _, _ => if cleared then .cleared value else .idle
  | phase, _, _ => phase

theorem note_unlock {phase : Phase} {lock : Nat} (h : phase.lock = some lock) :
    (note phase (.unlock lock) ()).lock = none := by
  cases phase with
  | removing value lock cleared => cases cleared <;> rfl
  | idle | read | found | cleared => cases h
  | held | marked | working | settled | revoking | revoked => rfl

/-- What every world answers. -/
def Honest : (e : Eff) → Ans e → Prop
  | .store (.certificate id), .ok value => value.id = id
  | .file _ e, r => PublishProtocol.Honest e r
  | _, _ => True

theorem exec_honest (env : Environment) (thread : Nat) (e : Eff) (w : World) :
    Honest e (exec env thread e w).1 := by
  cases e with
  | file certificate e => exact PublishProtocol.exec_honest env.host e w.fs
  | store q =>
    cases q with
    | certificate id =>
      change Honest (.store (.certificate id)) (SqliteStore.exec env.backend _ w.db).1
      cases answered : (SqliteStore.exec env.backend (.certificate id) w.db).1 with
      | error err => trivial
      | ok value =>
        have read := (SqliteStore.exec_ok answered).1
        simp only [SqliteStore.act] at read
        split at read
        · cases read
        · rename_i found
          cases read
          exact Db.id_of_row found
    | _ => trivial
  | _ => trivial

section Conformance
variable {request : Request}

-- A goal about a program is otherwise reduced as far as the texts in it go.
attribute [local irreducible] trimSpace

abbrev Keeps (request : Request) {α : Type} (p : Operation α) (phase : Phase)
    (Q : α → Phase → Prop) : Prop :=
  Follows Honest (allows request) note p phase Q

/-- A call that is allowed anywhere and tells nothing. -/
theorem keeps_silent {α : Type} {e : Eff} {k : Ans e → Operation α} {phase : Phase}
    {Q : α → Phase → Prop} (allowed : allows request phase e)
    (silent : ∀ r, note phase e r = phase) (rest : ∀ r, Keeps request (k r) phase Q) :
    Keeps request (Prog.perform e >>= k) phase Q := by
  refine follows_call.mpr ⟨allowed, fun r _ => ?_⟩
  rw [silent r]
  exact rest r

theorem publisher_follows {α : Type} {p : Files α} {value : Certificate} {lock : Option Nat}
    {material : Material} {pl : Payload} (matching : Matches value material pl)
    {progress : Progress} {Q : α → Progress → Prop}
    (safe : safeDirectory value.outputDirectory = true)
    (h : Follows PublishProtocol.Honest (PublishProtocol.allows value.outputDirectory pl)
      PublishProtocol.note p progress Q) :
    Keeps request (publisher value.id p) (.working value lock (some material) progress)
      fun a phase => ∃ progress', phase = .working value lock (some material) progress' ∧
        Q a progress' := by
  induction p generalizing progress with
  | ret a => exact ⟨progress, rfl, h⟩
  | call e k ih =>
    refine ⟨⟨rfl, safe, pl, matching, h.1⟩, fun r hr => ?_⟩
    exact ih r (h.2 r hr)

/-- The publication of an operation, over before it starts when the name of the
directory is not safe. -/
theorem publication_follows {value : Certificate} {lock : Option Nat} {material : Material}
    (document : FileSystem.Document) :
    Keeps request (publisher value.id (publish value.outputDirectory
        (payload material document value.createRenewedMarker)))
      (.working value lock (some material) .checking) fun r phase =>
        ∃ progress, phase = .working value lock (some material) progress ∧
          @PublishProtocol.Over value.outputDirectory r progress := by
  by_cases safe : safeDirectory value.outputDirectory = true
  · exact publisher_follows ⟨document, rfl⟩ safe PublishProtocol.publish_follows
  · obtain ⟨err, stopped⟩ := PublishProtocol.publish_unsafe value.outputDirectory
      (payload material document value.createRenewedMarker) safe
    rw [stopped]
    exact ⟨.checking, rfl, Or.inl rfl⟩

theorem publisher_quiet {α : Type} {p : Files α} (h : Only PublishProtocol.Honest Quiet p)
    (certificate : Id) {phase : Phase}
    (allowed : ∀ e, Quiet e → allows request phase (.file certificate e))
    (silent : ∀ e r, note phase (.file certificate e) r = phase) :
    Keeps request (publisher certificate p) phase fun _ phase' => phase' = phase := by
  induction p with
  | ret a => rfl
  | call e k ih =>
    refine ⟨allowed e h.1, fun r hr => ?_⟩
    rw [silent e r]
    exact ih r (h.2 r hr)

theorem failRenewal_follows {value : Certificate} {lock : Option Nat} {got : Option Material}
    {progress : Progress} (abandoned : Abandoned progress) (job : Id) (exit : Int) (output : Bytes)
    (renewErr : Error) (eventType actor clientIP : String) :
    Keeps request (failRenewal value job exit output renewErr eventType actor clientIP)
      (.working value lock got progress) fun _ phase => phase = .settled value lock := by
  refine keeps_silent trivial (fun _ => rfl) fun _ => ?_
  refine follows_call.mpr ⟨⟨rfl, abandoned⟩, fun _ _ => ?_⟩
  exact keeps_silent trivial (fun _ => rfl) fun _ => rfl

/-- The end of a piece of work on a certificate. -/
def Closed (value : Certificate) (lock : Option Nat) (phase : Phase) : Prop :=
  phase = .settled value lock ∨ ∃ got, phase = .working value lock got .checking

theorem publishAndRecord_follows {value : Certificate} {lock : Option Nat} {material : Material}
    (job : Id) {mark : Certificate → Operation (Except Error Unit)}
    (marks : Keeps request (mark (withMaterial value material))
      (.working value lock (some material) .released) fun _ phase => phase = .settled value lock)
    (eventType actor clientIP : String) :
    Keeps request (publishAndRecord value material job mark eventType actor clientIP)
      (.working value lock (some material) .checking) fun _ => Closed value lock := by
  refine keeps_silent trivial (fun _ => rfl) fun now => ?_
  split
  · exact (failRenewal_follows (Or.inl rfl) _ _ _ _ _ _ _).mono fun _ _ h => Or.inl h
  · rename_i document made
    refine (publication_follows document).bind ?_
    rintro r phase ⟨progress, rfl, ending⟩
    cases r with
    | error err =>
      exact (failRenewal_follows ending _ _ _ _ _ _ _).mono fun _ _ h => Or.inl h
    | ok target =>
      obtain ⟨-, rfl⟩ := ending
      refine marks.bind ?_
      rintro r phase rfl
      cases r with
      | error err => exact Or.inl rfl
      | ok _ =>
        refine keeps_silent trivial (fun _ => rfl) fun _ => ?_
        refine keeps_silent trivial (fun _ => rfl) fun _ => ?_
        exact keeps_silent trivial (fun r => by cases r <;> rfl) fun _ => Or.inl rfl

theorem markIssued_follows {value : Certificate} {lock : Option Nat} {material : Material} :
    Keeps request (store (.markCertificateIssued (withMaterial value material)))
      (.working value lock (some material) .released) fun _ phase => phase = .settled value lock :=
  ⟨rfl, fun _ _ => rfl⟩

theorem markRenewed_follows {value : Certificate} {lock : Option Nat} {material : Material} :
    Keeps request (store (.markCertificateRenewed (withMaterial value material)))
      (.working value lock (some material) .released) fun _ phase => phase = .settled value lock :=
  ⟨rfl, fun _ _ => rfl⟩

/-- What the work on the engine leaves: the material it returns is the one noted. -/
def Delivered (value : Certificate) (lock : Option Nat) (obtained : Obtained) (phase : Phase) :
    Prop :=
  ∃ got, phase = .working value lock got .checking ∧
    ∀ material, obtained = .material material → got = some material

theorem selfSigned_delivered {value : Certificate} {lock : Option Nat}
    (r : Except CommandFailure (Option SelfSignedResult)) :
    Delivered value lock (selfSignedObtained r)
      (match r with
        | .ok (some result) => .working value lock (some (.ofSelfSigned result)) .checking
        | _ => .working value lock none .checking) := by
  rcases r with err | _ | result
  · exact ⟨none, rfl, fun _ h => by cases h⟩
  · exact ⟨none, rfl, fun _ h => by cases h⟩
  · exact ⟨_, rfl, fun _ h => by cases h; rfl⟩

theorem acme_delivered {value : Certificate} {lock : Option Nat} (primaryDomain : String)
    (r : Except CommandFailure (Option ACMEResult)) :
    Delivered value lock (acmeObtained primaryDomain r)
      (match r with
        | .ok (some result) => .working value lock (some (.ofACME result)) .checking
        | _ => .working value lock none .checking) := by
  rcases r with err | _ | result
  · exact ⟨none, rfl, fun _ h => by cases h⟩
  · exact ⟨none, rfl, fun _ h => by cases h⟩
  · exact ⟨_, rfl, fun _ h => by cases h; rfl⟩

theorem delivered_nothing {value : Certificate} {lock : Option Nat} {obtained : Obtained}
    (h : ∀ material, obtained ≠ .material material) :
    Delivered value lock obtained (.working value lock none .checking) :=
  ⟨none, rfl, fun material hm => absurd hm (h material)⟩

theorem renewMaterial_follows (s : Service) (value : Certificate) (lock : Option Nat)
    (force : Bool) :
    Keeps request (renewMaterial s value force) (.working value lock none .checking)
      (Delivered value lock) := by
  have engine : ∀ renewal, allows request (.working value lock none .checking)
      (.renewACME value.id renewal) := fun _ => ⟨value, lock, rfl, rfl⟩
  unfold renewMaterial
  split
  · split
    · refine follows_call.mpr ⟨⟨value, lock, rfl, rfl⟩, fun r _ => ?_⟩
      rcases r with err | _ | result <;> exact selfSigned_delivered _
    · exact delivered_nothing fun _ h => by cases h
  · split
    · split
      · split
        · refine keeps_silent trivial (fun _ => rfl) fun r => ?_
          cases r with
          | error err => exact delivered_nothing fun _ h => by cases h
          | ok values =>
            refine follows_call.mpr ⟨engine _, fun r _ => ?_⟩
            rcases r with err | _ | result <;> exact acme_delivered _ _
        · exact delivered_nothing fun _ h => by cases h
      · refine follows_call.mpr ⟨engine _, fun r _ => ?_⟩
        rcases r with err | _ | result <;> exact acme_delivered _ _
    · exact delivered_nothing fun _ h => by cases h
  · exact delivered_nothing fun _ h => by cases h

theorem issueMaterial_follows (s : Service) (value : Certificate) (lock : Option Nat) :
    Keeps request (issueMaterial s value) (.working value lock none .checking)
      (Delivered value lock) := by
  have engine : ∀ issuance, allows request (.working value lock none .checking)
      (.issueACME value.id issuance) := fun _ => ⟨value, lock, rfl, rfl⟩
  unfold issueMaterial
  split
  · split
    · refine follows_call.mpr ⟨⟨value, lock, rfl, rfl⟩, fun r _ => ?_⟩
      rcases r with err | _ | result <;> exact selfSigned_delivered _
    · exact delivered_nothing fun _ h => by cases h
  · split
    · split
      · split
        · refine keeps_silent trivial (fun _ => rfl) fun r => ?_
          cases r with
          | error err => exact delivered_nothing fun _ h => by cases h
          | ok values =>
            refine follows_call.mpr ⟨engine _, fun r _ => ?_⟩
            rcases r with err | _ | result <;> exact acme_delivered _ _
        · exact delivered_nothing fun _ h => by cases h
      · split
        · refine follows_call.mpr ⟨engine _, fun r _ => ?_⟩
          rcases r with err | _ | result <;> exact acme_delivered _ _
        · exact delivered_nothing fun _ h => by cases h
    · exact delivered_nothing fun _ h => by cases h
  · exact delivered_nothing fun _ h => by cases h

theorem finishIssue_follows {value : Certificate} {lock : Option Nat} {obtained : Obtained}
    {phase : Phase} (delivered : Delivered value lock obtained phase) (job : Id)
    {mark : Certificate → Operation (Except Error Unit)}
    (marks : ∀ material, Keeps request (mark (withMaterial value material))
      (.working value lock (some material) .released) fun _ phase => phase = .settled value lock)
    (eventType actor clientIP : String) :
    Keeps request (finishIssue value job obtained mark eventType actor clientIP) phase
      fun _ => Closed value lock := by
  obtain ⟨got, rfl, noted⟩ := delivered
  cases obtained with
  | panicked => exact Or.inr ⟨got, rfl⟩
  | failed exit err =>
    exact (failRenewal_follows (Or.inl rfl) _ _ _ _ _ _ _).mono fun _ _ h => Or.inl h
  | material material =>
    rw [noted material rfl]
    exact publishAndRecord_follows job (marks material) _ _ _

/-- The thread still has the lock and nothing to do but give it back. -/
def Leaving (lock : Nat) (phase : Phase) : Prop :=
  (phase.lock = some lock ∧ phase.mayLeave ∧ phase.atRest) ∧ note phase (.unlock lock) () = .idle

theorem Closed.leaving {value : Certificate} {lock : Nat} {phase : Phase}
    (h : Closed value (some lock) phase) : Leaving lock phase := by
  rcases h with rfl | ⟨got, rfl⟩
  · exact ⟨⟨rfl, trivial, trivial⟩, rfl⟩
  · exact ⟨⟨rfl, trivial, rfl⟩, rfl⟩

theorem renewLocked_follows
    (gated : ∀ value, renewAllowed value.status = true → request.gate value = true)
    (s : Service) (value : Certificate) (lock : Nat) (force : Bool)
    (jobType : JobType) (eventType actor clientIP : String) :
    Keeps request (renewLocked s value force jobType eventType actor clientIP) (.held value lock)
      fun _ => Leaving lock := by
  unfold renewLocked
  split
  · exact ⟨⟨rfl, trivial, trivial⟩, rfl⟩
  · rename_i gate
    refine follows_call.mpr ⟨⟨rfl, gated value (by simpa using gate), Or.inl rfl⟩, fun r _ => ?_⟩
    cases r with
    | error err => exact ⟨⟨rfl, trivial, trivial⟩, rfl⟩
    | ok _ =>
      refine follows_call.mpr ⟨rfl, fun r _ => ?_⟩
      cases r with
      | error err => exact ⟨⟨rfl, trivial, trivial⟩, rfl⟩
      | ok job =>
        refine (renewMaterial_follows s value (some lock) force).bind fun obtained phase h => ?_
        exact (finishIssue_follows h _ (fun _ => markRenewed_follows) _ _ _).mono
          fun _ _ h => h.leaving

theorem issueExistingCertificate_follows (s : Service) {value : Certificate} (lock : Nat)
    (gate : request.gate value = true) (actor clientIP : String) :
    Keeps request (issueExistingCertificate s value actor clientIP) (.held value lock)
      fun _ => Leaving lock := by
  unfold issueExistingCertificate
  split
  · exact ⟨⟨rfl, trivial, trivial⟩, rfl⟩
  · refine follows_call.mpr ⟨⟨rfl, gate, Or.inr rfl⟩, fun r _ => ?_⟩
    cases r with
    | error err => exact ⟨⟨rfl, trivial, trivial⟩, rfl⟩
    | ok _ =>
      refine follows_call.mpr ⟨rfl, fun r _ => ?_⟩
      cases r with
      | error err => exact follows_call.mpr ⟨rfl, fun _ _ => ⟨⟨rfl, trivial, trivial⟩, rfl⟩⟩
      | ok job =>
        refine (issueMaterial_follows s value (some lock)).bind fun obtained phase h => ?_
        exact (finishIssue_follows h _ (fun _ => markIssued_follows) _ _ _).mono
          fun _ _ h => h.leaving

/-- The gate of `issueExisting` for each kind of job. -/
def jobGate (jobType : JobType) (value : Certificate) : Bool :=
  if jobType = .issue then manualIssueAllowed value.status else renewAllowed value.status

theorem issueLocked_follows {jobType : JobType}
    (gated : ∀ value, jobGate jobType value = true → request.gate value = true)
    (s : Service) (value : Certificate) (lock : Nat) (force : Bool)
    (eventType actor clientIP : String) :
    Keeps request (issueLocked s value force jobType eventType actor clientIP) (.held value lock)
      fun _ => Leaving lock := by
  unfold jobGate at gated
  unfold issueLocked
  split
  · rename_i manual
    simp only [if_pos manual] at gated
    split
    · exact ⟨⟨rfl, trivial, trivial⟩, rfl⟩
    · rename_i gate
      exact issueExistingCertificate_follows s lock (gated value (by simpa using gate)) _ _
  · rename_i renewal
    simp only [if_neg renewal] at gated
    exact renewLocked_follows gated s value lock force jobType _ _ _

/-- An operation that starts where nothing has been done yet. -/
def Fresh (phase : Phase) : Prop := phase = .idle ∨ ∃ value, phase = .read value

theorem get_follows (id : Id) {phase : Phase} (fresh : Fresh phase) :
    Keeps request (get id) phase fun r phase' =>
      match r with
      | .ok value => value.id = id ∧ phase' = .read value
      | .error _ => phase' = phase := by
  rcases fresh with rfl | ⟨value, rfl⟩ <;>
    exact ⟨trivial, fun r honest => by cases r with
      | error err => exact rfl
      | ok value => exact ⟨honest, rfl⟩⟩

/-- Taking the lock of a certificate that was read, working, giving it back. -/
theorem locked_follows {α : Type} {value : Certificate} {busy : α}
    {work : Operation α} {D : Nat → Phase → Prop} {Q : α → Phase → Prop}
    (body : ∀ lock, Keeps request work (.held value lock) fun _ phase =>
      (phase.lock = some lock ∧ phase.mayLeave ∧ phase.atRest) ∧ D lock phase)
    (refused : Q busy .idle)
    (finish : ∀ a lock phase, D lock phase → Q a (note phase (.unlock lock) ())) :
    Keeps request (do
      let lock ← loadOrStore value.id
      match ← tryLock lock with
      | false => return busy
      | true =>
        let result ← work
        let _ ← unlock lock
        return result) (.read value) Q := by
  refine follows_call.mpr ⟨⟨value, rfl, rfl⟩, fun lock _ => ?_⟩
  refine follows_call.mpr ⟨⟨value, rfl⟩, fun r _ => ?_⟩
  cases r with
  | false => exact refused
  | true =>
    refine (body lock).bind fun a phase h => ?_
    exact follows_call.mpr ⟨h.1, fun _ _ => finish a lock phase h.2⟩

theorem issueExisting_follows {jobType : JobType}
    (gated : ∀ value, jobGate jobType value = true → request.gate value = true)
    (s : Service) (id : Id) (force : Bool)
    (eventType actor clientIP : String) {phase : Phase} (fresh : Fresh phase) :
    Keeps request (issueExisting s id force jobType eventType actor clientIP) phase
      fun _ phase' => phase' = phase ∨ phase' = .idle := by
  unfold issueExisting
  refine (get_follows id fresh).bind fun r phase' h => ?_
  cases r with
  | error err => exact Or.inl h
  | ok value =>
    obtain ⟨rfl, rfl⟩ := h
    refine locked_follows
      (D := fun lock phase' => note phase' (.unlock lock) () = .idle) (fun lock => ?_)
      (Or.inr rfl) fun _ _ _ h => Or.inr h
    exact issueLocked_follows gated s value lock force _ _ _

theorem renew_follows
    (gated : ∀ value, renewAllowed value.status = true → request.gate value = true)
    (s : Service) (id : Id) (force : Bool) (actor clientIP : String)
    {phase : Phase} (fresh : Fresh phase) :
    Keeps request (renew s id force actor clientIP) phase
      fun _ phase' => phase' = phase ∨ phase' = .idle := by
  unfold renew
  split
  · have forced : ∀ value, jobGate .forceRenew value = true → request.gate value = true := gated
    exact issueExisting_follows forced s id force _ _ _ fresh
  · have plain : ∀ value, jobGate .renew value = true → request.gate value = true := gated
    exact issueExisting_follows plain s id force _ _ _ fresh

theorem issue_follows (s : Service) (id : Id) (actor clientIP : String) :
    Keeps (.issue id actor clientIP) (issue s id actor clientIP) .idle
      fun _ phase => phase.lock = none := by
  unfold issue
  refine (get_follows id (Or.inl rfl)).bind fun r phase h => ?_
  cases r with
  | error err => exact h ▸ rfl
  | ok value =>
    obtain ⟨-, rfl⟩ := h
    dsimp only
    split
    · exact rfl
    · have gated : ∀ value, jobGate .issue value = true →
          Request.gate (.issue id actor clientIP) value = true := fun _ gate => gate
      refine (issueExisting_follows gated s id true _ _ _ (Or.inr ⟨value, rfl⟩)).mono ?_
      rintro _ phase (rfl | rfl) <;> rfl

theorem revokeLocked_follows {value : Certificate} (lock : Nat) (actor clientIP : String)
    (gate : request.gate value = true) (revokes : request.revokes) :
    Keeps request (revokeLocked value actor clientIP) (.held value lock)
      fun _ => Leaving lock := by
  refine follows_call.mpr ⟨⟨rfl, gate, revokes⟩, fun r _ => ?_⟩
  cases r with
  | error err => exact ⟨⟨rfl, trivial, trivial⟩, rfl⟩
  | ok job =>
    refine follows_call.mpr ⟨⟨value, lock, rfl, rfl⟩, fun r _ => ?_⟩
    cases r with
    | error refusal =>
      refine keeps_silent trivial (fun _ => rfl) fun _ => ?_
      exact keeps_silent trivial (fun _ => rfl) fun _ => ⟨⟨rfl, trivial, trivial⟩, rfl⟩
    | ok _ =>
      refine follows_call.mpr ⟨⟨rfl, rfl⟩, fun r _ => ?_⟩
      cases r with
      | error err => exact ⟨⟨rfl, trivial, trivial⟩, rfl⟩
      | ok _ =>
        refine keeps_silent trivial (fun _ => rfl) fun _ => ?_
        refine keeps_silent trivial (fun _ => rfl) fun _ => ?_
        exact keeps_silent trivial (fun r => by cases r <;> rfl)
          fun _ => ⟨⟨rfl, trivial, trivial⟩, rfl⟩

theorem revoke_follows (s : Service) (id : Id) (actor clientIP : String) :
    Keeps (.revoke id actor clientIP) (revoke s id actor clientIP) .idle
      fun _ phase => phase.lock = none := by
  unfold revoke
  refine (get_follows id (Or.inl rfl)).bind fun r phase h => ?_
  cases r with
  | error err => exact h ▸ rfl
  | ok value =>
    obtain ⟨rfl, rfl⟩ := h
    dsimp only
    split
    · exact rfl
    · rename_i gate
      split
      · exact rfl
      · have gate : Request.gate (.revoke value.id actor clientIP) value = true := by
          simpa [Request.gate] using gate
        refine locked_follows
          (D := fun lock phase' => note phase' (.unlock lock) () = .idle) (fun lock => ?_)
          rfl fun _ _ _ h => h ▸ rfl
        exact revokeLocked_follows lock actor clientIP gate trivial

/-- A delete that has removed its files, or found none to remove. -/
def Removed (value : Certificate) (lock : Nat) (r : Except Error Unit) (phase : Phase) : Prop :=
  ∃ cleared, phase = .removing value lock cleared ∧ (r = .ok () → cleared = true)

theorem removal_follows (safeName : String) (cleared : Bool) :
    Follows PublishProtocol.Honest (fun _ => removesAt safeName) noteRemoval
      (removeDirectory safeName) cleared fun r cleared => r = .ok () → cleared = true := by
  unfold removeDirectory
  by_cases safe : safeDirectory safeName = true
  · rw [validateSafeDirectory, if_pos safe]
    have validated : Follows PublishProtocol.Honest (fun _ => removesAt safeName) noteRemoval
        (validateTarget (targetOf safeName)) cleared fun _ _ => True := by
      refine follows_call.mpr ⟨⟨safe, Or.inl rfl⟩, fun r _ => ?_⟩
      cases r <;> dsimp only <;> split <;> trivial
    refine validated.bind fun r cleared _ => ?_
    cases r with
    | error err => exact fun h => by cases h
    | ok _ =>
      refine follows_call.mpr ⟨⟨safe, Or.inl rfl⟩, fun r _ => ?_⟩
      cases r with
      | error err =>
        dsimp only
        split
        · rename_i absent
          exact fun _ => absent
        · exact fun h => by cases h
      | ok info =>
        dsimp only
        split
        · exact fun h => by cases h
        · exact ⟨⟨safe, Or.inr rfl⟩, fun r _ h => by cases h; rfl⟩
  · rw [validateSafeDirectory, if_neg safe]
    exact fun h => by cases h

/-- The calls of `Remove` lead to a directory that is gone, or to an error. -/
theorem removeDirectory_follows {value : Certificate} {lock : Nat}
    (deletes : request.clears) :
    Keeps request (publisher value.id (removeDirectory value.outputDirectory))
      (.removing value lock false) (Removed value lock) := by
  have lifted : ∀ {p : Files (Except Error Unit)} {cleared : Bool},
      Follows PublishProtocol.Honest (fun _ => removesAt value.outputDirectory) noteRemoval p cleared
        (fun r cleared => r = .ok () → cleared = true) →
      Keeps request (publisher value.id p) (.removing value lock cleared) (Removed value lock) := by
    intro p cleared h
    induction p generalizing cleared with
    | ret a => exact ⟨cleared, rfl, h⟩
    | call e k ih => exact ⟨⟨deletes, h.1⟩, fun r hr => ih r (h.2 r hr)⟩
  exact lifted (removal_follows _ _)

/-- A delete on its way out: with `deleteFiles` and no error the files are gone. -/
def Deleting (value : Certificate) (deleteFiles : Bool) (lock : Nat) (r : Outcome Unit)
    (phase : Phase) : Prop :=
  (phase.lock = some lock ∧ phase.mayLeave ∧ phase.atRest) ∧
    (deleteFiles = true → r = .ok () → note phase (.unlock lock) () = .cleared value)

theorem deleteRecord_follows {value : Certificate} {lock : Nat} {deleteFiles : Bool}
    (deletes : deleteFiles = true → request.clears)
    (result : BackupResult) (actor clientIP : String) :
    Keeps request (deleteRecord value deleteFiles result actor clientIP) (.held value lock)
      (Deleting value deleteFiles lock) := by
  refine follows_call.mpr ⟨⟨rfl, rfl⟩, fun r _ => ?_⟩
  cases r with
  | error err => exact ⟨⟨rfl, trivial, trivial⟩, fun _ h => by cases h⟩
  | ok _ =>
    dsimp only
    split
    · rename_i withFiles
      refine (removeDirectory_follows (deletes withFiles)).bind ?_
      rintro r phase ⟨cleared, rfl, done⟩
      cases r with
      | error err => exact ⟨⟨rfl, trivial, trivial⟩, fun _ h => by cases h⟩
      | ok _ =>
        rw [done rfl]
        exact follows_call.mpr ⟨⟨value, lock, true, rfl, rfl⟩,
          fun _ _ => ⟨⟨rfl, trivial, trivial⟩, fun _ _ => rfl⟩⟩
    · rename_i withoutFiles
      refine follows_call.mpr ⟨⟨value, lock, false, rfl, rfl⟩,
        fun _ _ => ⟨⟨rfl, trivial, trivial⟩, fun h => ?_⟩⟩
      exact absurd h withoutFiles

theorem deleteLocked_follows {value : Certificate} {lock : Nat} {deleteFiles : Bool}
    (deletes : deleteFiles = true → request.clears) (actor clientIP : String) :
    Keeps request (deleteLocked value deleteFiles actor clientIP) (.held value lock)
      (Deleting value deleteFiles lock) := by
  unfold deleteLocked
  split
  · rename_i withFiles
    have allowed : ∀ e, Quiet e → allows request (.held value lock) (.file value.id e) :=
      fun _ quiet => quiet
    refine (publisher_quiet (PublishProtocol.backup_quiet _) value.id allowed fun e r => rfl).bind ?_
    rintro ⟨result, r⟩ phase rfl
    cases r with
    | error err =>
      refine keeps_silent trivial (fun _ => rfl) fun audited => ?_
      cases audited <;> exact ⟨⟨rfl, trivial, trivial⟩, fun _ h => by cases h⟩
    | ok _ =>
      subst withFiles
      exact deleteRecord_follows deletes result actor clientIP
  · rename_i withoutFiles
    rw [Bool.not_eq_true] at withoutFiles
    subst withoutFiles
    exact deleteRecord_follows deletes _ actor clientIP

theorem delete_follows (id : Id) (deleteFiles : Bool) (actor clientIP : String) :
    Keeps (.delete id deleteFiles actor clientIP) (delete id deleteFiles actor clientIP) .idle
      fun r phase => phase.lock = none ∧ (deleteFiles = true → r = .ok () →
        ∃ value, value.id = id ∧ phase = .cleared value) := by
  unfold delete
  refine (get_follows id (Or.inl rfl)).bind fun r phase h => ?_
  cases r with
  | error err => exact ⟨h ▸ rfl, fun _ h => by cases h⟩
  | ok value =>
    obtain ⟨rfl, rfl⟩ := h
    refine follows_call.mpr ⟨⟨value, rfl, rfl⟩, fun lock _ => ?_⟩
    refine follows_call.mpr ⟨⟨value, rfl⟩, fun r _ => ?_⟩
    cases r with
    | false => exact ⟨rfl, fun _ h => by cases h⟩
    | true =>
      refine (deleteLocked_follows ?_ actor clientIP).bind fun r phase h => ?_
      · rintro rfl
        trivial
      · refine follows_call.mpr ⟨h.1, fun _ _ => ⟨note_unlock h.1.1, fun withFiles ok => ?_⟩⟩
        exact ⟨value, rfl, h.2 withFiles ok⟩

theorem issueCreated_follows (creates : request.creates) {value : Certificate}
    (issuing : value.status = .issuing) (jobType : JobType)
    {engine : Certificate → Operation Obtained}
    (engines : ∀ value, Keeps request (engine value) (.working value none none .checking)
      (Delivered value none)) (detail : List (String × Detail)) (actor clientIP : String) :
    Keeps request (issueCreated value jobType engine detail actor clientIP) .idle
      fun _ phase => phase.lock = none := by
  refine follows_call.mpr ⟨⟨rfl, creates, issuing⟩, fun r _ => ?_⟩
  cases r with
  | error err => exact rfl
  | ok value =>
    refine follows_call.mpr ⟨rfl, fun r _ => ?_⟩
    cases r with
    | error err => exact follows_call.mpr ⟨rfl, fun _ _ => rfl⟩
    | ok job =>
      refine (engines value).bind ?_
      rintro obtained phase ⟨got, rfl, noted⟩
      cases obtained with
      | panicked => exact rfl
      | failed exit err =>
        refine keeps_silent trivial (fun _ => rfl) fun _ => ?_
        refine follows_call.mpr ⟨⟨rfl, Or.inl rfl⟩, fun _ _ => ?_⟩
        exact keeps_silent trivial (fun _ => rfl) fun _ => rfl
      | material material =>
        rw [noted material rfl]
        refine keeps_silent trivial (fun _ => rfl) fun now => ?_
        split
        · exact rfl
        · rename_i document made
          refine (publication_follows document).bind ?_
          rintro r phase ⟨progress, rfl, ending⟩
          cases r with
          | error err =>
            refine keeps_silent trivial (fun _ => rfl) fun _ => ?_
            exact follows_call.mpr ⟨⟨rfl, ending⟩, fun _ _ => rfl⟩
          | ok target =>
            obtain ⟨-, rfl⟩ := ending
            refine markIssued_follows.bind ?_
            rintro r phase rfl
            cases r with
            | error err => exact rfl
            | ok _ =>
              refine keeps_silent trivial (fun _ => rfl) fun _ => ?_
              refine keeps_silent trivial (fun _ => rfl) fun _ => ?_
              exact keeps_silent trivial (fun r => by cases r <;> rfl) fun _ => rfl

theorem createACME_follows (creates : request.creates) (s : Service) (r : CreateACMERequest)
    (actor clientIP : String) :
    Keeps request (createACME s r actor clientIP) .idle fun _ phase => phase.lock = none := by
  unfold createACME
  split
  · exact rfl
  split
  · exact rfl
  split
  · exact rfl
  split
  · exact rfl
  have challenge : Keeps request (challengeValues s r.challengeType r.dnsCredentialID) .idle
      fun _ phase => phase = .idle := by
    unfold challengeValues
    split
    · split
      · exact rfl
      · exact ⟨trivial, fun _ _ => rfl⟩
    · split <;> exact rfl
  refine challenge.bind ?_
  rintro resolved phase rfl
  cases resolved with
  | error err => exact rfl
  | ok values =>
    refine issueCreated_follows creates rfl _ (fun value => ?_) _ _ _
    refine follows_call.mpr ⟨⟨value, none, rfl, rfl⟩, fun r _ => ?_⟩
    rcases r with err | _ | result
    · exact ⟨none, rfl, fun _ h => by cases h⟩
    · exact ⟨none, rfl, fun _ h => by cases h⟩
    · exact ⟨_, rfl, fun _ h => by cases h; rfl⟩

theorem createSelfSigned_follows (creates : request.creates) (s : Service)
    (r : CreateSelfSignedRequest) (actor clientIP : String) :
    Keeps request (createSelfSigned s r actor clientIP) .idle fun _ phase => phase.lock = none := by
  unfold createSelfSigned
  split
  · exact rfl
  split
  · exact rfl
  split
  · exact rfl
  split
  · exact rfl
  refine issueCreated_follows creates rfl _ (fun value => ?_) _ _ _
  split
  · refine follows_call.mpr ⟨⟨value, none, rfl, rfl⟩, fun r _ => ?_⟩
    rcases r with err | _ | result
    · exact ⟨none, rfl, fun _ h => by cases h⟩
    · exact ⟨none, rfl, fun _ h => by cases h⟩
    · exact ⟨_, rfl, fun _ h => by cases h; rfl⟩
  · exact ⟨none, rfl, fun _ h => by cases h⟩

/-- Reading ends without a lock. -/
theorem get_unlocked (id : Id) {phase : Phase} (fresh : Fresh phase) :
    Keeps request (get id) phase fun _ phase' => phase'.lock = none := by
  refine (get_follows id fresh).mono fun r phase' h => ?_
  cases r with
  | error err =>
    subst h
    rcases fresh with rfl | ⟨value, rfl⟩ <;> rfl
  | ok value => exact h.2 ▸ rfl

theorem update_follows (id : Id) (r : UpdateRequest) (actor clientIP : String) :
    Keeps request (update id r actor clientIP) .idle fun _ phase => phase.lock = none := by
  unfold update
  dsimp only
  split
  · exact rfl
  split
  · exact rfl
  refine (get_follows id (Or.inl rfl)).bind fun r phase h => ?_
  cases r with
  | error err => exact h ▸ rfl
  | ok value =>
    obtain ⟨rfl, rfl⟩ := h
    refine keeps_silent trivial (fun _ => rfl) fun r => ?_
    cases r with
    | error err => exact rfl
    | ok _ =>
      refine keeps_silent trivial (fun _ => rfl) fun _ => ?_
      exact (get_unlocked value.id (Or.inr ⟨value, rfl⟩)).bind fun _ _ h => h

theorem readFile_follows (id : Id) (fileName : String) :
    Keeps request (readFile id fileName) .idle fun _ phase => phase.lock = none := by
  unfold readFile
  refine (get_follows id (Or.inl rfl)).bind fun r phase h => ?_
  cases r with
  | error err => exact h ▸ rfl
  | ok value =>
    obtain ⟨-, rfl⟩ := h
    have allowed : ∀ e, Quiet e → allows request (.read value) (.file id e) := fun _ quiet => quiet
    refine (publisher_quiet (PublishProtocol.read_quiet _ _) id allowed fun e r => rfl).bind ?_
    rintro r phase rfl
    cases r <;> exact rfl

theorem availableFiles_follows (id : Id) :
    Keeps request (availableFiles id) .idle fun _ phase => phase.lock = none := by
  unfold availableFiles
  refine (get_follows id (Or.inl rfl)).bind fun r phase h => ?_
  cases r with
  | error err => exact h ▸ rfl
  | ok value =>
    obtain ⟨-, rfl⟩ := h
    have allowed : ∀ e, Quiet e → allows request (.read value) (.file id e) := fun _ quiet => quiet
    refine (publisher_quiet (PublishProtocol.available_quiet _) id allowed fun e r => rfl).mono ?_
    rintro _ phase rfl
    exact rfl

theorem renewalAttempts_follows
    (gated : ∀ value, renewAllowed value.status = true → request.gate value = true) (s : Service)
    (policy : Policy) (id : Id) (left : Nat) :
    Keeps request (renewalAttempts s policy id left) .idle fun _ phase => phase = .idle := by
  have attempt : ∀ again : Error → Operation Attempts,
      (∀ err, Keeps request (again err) .idle fun _ phase => phase = .idle) →
      Keeps request (renewalAttempt s id again) .idle fun _ phase => phase = .idle := by
    intro again goesOn
    refine (renew_follows gated s id false _ _ (Or.inl rfl)).bind fun r phase h => ?_
    rw [or_self] at h
    subst h
    cases r with
    | ok _ => exact rfl
    | panicked => exact rfl
    | error err =>
      dsimp only
      split
      · exact rfl
      · exact goesOn err
  induction left with
  | zero => exact attempt _ fun _ => rfl
  | succ left ih =>
    refine attempt _ fun _ => ?_
    refine keeps_silent trivial (fun _ => rfl) fun r => ?_
    cases r with
    | false => exact rfl
    | true => exact ih

theorem renewalWorker_follows
    (gated : ∀ value, renewAllowed value.status = true → request.gate value = true) (s : Service)
    (policy : Policy) (scan : Nat) (id : Id) :
    Keeps request (renewalWorker s policy scan id) .idle fun _ phase => phase.lock = none := by
  have done : Keeps request (Prog.perform (Eff.workerDone scan id)) .idle
      fun _ phase => phase.lock = none := ⟨trivial, fun _ _ => rfl⟩
  have leave : Keeps request (do
      let _ ← Prog.perform (Eff.releaseSlot scan)
      Prog.perform (Eff.workerDone scan id)) .idle fun _ phase => phase.lock = none :=
    keeps_silent trivial (fun _ => rfl) fun _ => done
  refine keeps_silent trivial (fun _ => rfl) fun r => ?_
  cases r with
  | false => exact done
  | true =>
    refine (renewalAttempts_follows gated s policy id policy.retryCount).bind ?_
    rintro ended phase rfl
    rcases ended with (_ | renewErr) | _ | _
    · exact leave
    · dsimp only
      split
      · exact leave
      · exact keeps_silent trivial (fun _ => rfl) fun _ => leave
    · exact leave
    · exact rfl

theorem startWorkers_follows (policy : Policy) (scan : Nat) (values : List Certificate) :
    Keeps request (startWorkers policy scan values) .idle fun _ phase => phase = .idle := by
  induction values with
  | nil => exact rfl
  | cons item rest ih =>
    refine keeps_silent trivial (fun _ => rfl) fun now => ?_
    split
    · refine keeps_silent trivial (fun _ => rfl) fun _ => ?_
      exact keeps_silent trivial (fun _ => rfl) fun _ => ih
    · exact ih

theorem runRenewalScan_follows (policy : Policy) :
    Keeps request (runRenewalScan policy) .idle fun _ phase => phase.lock = none := by
  refine keeps_silent trivial (fun _ => rfl) fun r => ?_
  cases r with
  | error err => exact rfl
  | ok values =>
    refine keeps_silent trivial (fun _ => rfl) fun scan => ?_
    refine (startWorkers_follows policy scan values).bind ?_
    rintro _ phase rfl
    refine keeps_silent trivial (fun _ => rfl) fun _ => ?_
    refine keeps_silent trivial (fun _ => rfl) fun renewalErrors => ?_
    split <;> exact rfl

end Conformance

/-- With which phases a request may end. -/
structure Ends (request : Request) (r : Outcome Unit) (phase : Phase) : Prop where
  unlocked : phase.lock = none
  cleared : ∀ id actor clientIP, request = .delete id true actor clientIP → r = .ok () →
    ∃ value, value.id = id ∧ phase = .cleared value

attribute [local irreducible] trimSpace in
/-- Every request keeps to the protocol from its first call to its last. -/
theorem programOf_follows (s : Service) (request : Request) :
    Keeps request (programOf s request) .idle (Ends request) := by
  have plain : ∀ {α : Type} {p : Operation α} {f : α → Outcome Unit},
      (∀ id actor clientIP, request ≠ .delete id true actor clientIP) →
      Keeps request p .idle (fun _ phase => phase.lock = none) →
      Keeps request (p >>= fun r => .ret (f r)) .idle (Ends request) := by
    intro α p f other h
    refine h.bind fun r phase unlocked => ⟨unlocked, ?_⟩
    exact fun id actor clientIP same => absurd same (other id actor clientIP)
  cases request with
  | list => exact plain (by simp) ⟨trivial, fun _ _ => rfl⟩
  | get id => exact plain (by simp) (get_unlocked id (Or.inl rfl))
  | readFile id fileName => exact plain (by simp) (readFile_follows id fileName)
  | availableFiles id => exact plain (by simp) (availableFiles_follows id)
  | update id r actor clientIP => exact plain (by simp) (update_follows id r actor clientIP)
  | createSelfSigned r actor clientIP =>
    have creates : Request.creates (.createSelfSigned r actor clientIP) := trivial
    exact plain (by simp) (createSelfSigned_follows creates s r actor clientIP)
  | createACME r actor clientIP =>
    have creates : Request.creates (.createACME r actor clientIP) := trivial
    exact plain (by simp) (createACME_follows creates s r actor clientIP)
  | issue id actor clientIP => exact plain (by simp) (issue_follows s id actor clientIP)
  | renew id force actor clientIP =>
    have gated : ∀ value, renewAllowed value.status = true →
        Request.gate (.renew id force actor clientIP) value = true := fun _ gate => gate
    refine plain (by simp) ((renew_follows gated s id force actor clientIP (Or.inl rfl)).mono ?_)
    rintro _ phase (rfl | rfl) <;> rfl
  | revoke id actor clientIP => exact plain (by simp) (revoke_follows s id actor clientIP)
  | delete id deleteFiles actor clientIP =>
    refine (delete_follows id deleteFiles actor clientIP).mono fun r phase h => ⟨h.1, ?_⟩
    intro id' actor' clientIP' same ok
    cases same
    exact h.2 rfl ok
  | scan policy =>
    refine (runRenewalScan_follows policy).mono fun r phase unlocked => ⟨unlocked, ?_⟩
    exact fun _ _ _ same => by cases same
  | worker policy scan id =>
    have gated : ∀ value, renewAllowed value.status = true →
        Request.gate (.worker policy scan id) value = true := fun _ gate => gate
    exact plain (by simp) (renewalWorker_follows gated s policy scan id)

end ServiceProtocol
