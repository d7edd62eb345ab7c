import CertMate.ServicePool
import CertMate.ThreadNotes

/-!
# The history of jobs and audit events

An operation ends only the job that it has created, and once. So a job that has
ended stays as it ended, whatever else runs and however often the process is
killed, and the audit log only grows. A deletion takes the links to the
certificate away, and nothing else.
-/
namespace JobHistory
open CertificateModel CallTrees ThreadPools ServiceWorld CertificateService ServiceProtocol
  ServicePool
open CertificateFiles (BackupResult)
open SqliteStore hiding exec
open DomainValidation (trimSpace normalizeDomains)

/-- A new job is running, and the only one that is ended is one's own. -/
def allows (job : Option Id) : Eff → Prop
  | .store (.createJob run) => run.status = .running
  | .store (.finishJob id status _ _ _) => job = some id ∧ status ≠ .running
  | _ => True

def jot : Option Id → (e : Eff) → Ans e → Option Id
  | _, .store (.createJob _), .ok job => some job.id
  | _, .store (.finishJob _ _ _ _ _), _ => none
  | job, _, _ => job

/-- The call is not about a job. -/
def JobFree : Eff → Prop
  | .store (.createJob _) | .store (.finishJob _ _ _ _ _) => False
  | _ => True

theorem allows_free {e : Eff} (free : JobFree e) (job : Option Id) : allows job e := by
  cases e with
  | store q => cases q <;> first | exact free.elim | exact trivial
  | _ => exact trivial

theorem jot_free {e : Eff} (free : JobFree e) (job : Option Id)
    (r : Ans e) : jot job e r = job := by
  cases e with
  | store q => cases q <;> first | exact free.elim | rfl
  | _ => rfl

section Operations
variable {s : Service} {α : Type} {job : Option Id}

-- A goal about a program is otherwise reduced as far as the texts in it go.
attribute [local irreducible] trimSpace normalizeDomains

abbrev Keeps {α : Type} (p : Operation α) (job : Option Id) (Q : α → Option Id → Prop) : Prop :=
  Follows (fun _ _ => True) allows jot p job Q

/-- Nothing is asked of the end. -/
abbrev Tends {α : Type} (p : Operation α) (job : Option Id) : Prop := Keeps p job fun _ _ => True

theorem keeps_free {e : Eff} {k : Ans e → Operation α} {Q : α → Option Id → Prop}
    (free : JobFree e) (rest : ∀ r, Keeps (k r) job Q) : Keeps (Prog.perform e >>= k) job Q := by
  refine follows_call.mpr ⟨allows_free free job, fun r _ => ?_⟩
  rw [jot_free free]
  exact rest r

/-- Calls that are not about a job. -/
abbrev Idle {α : Type} (p : Operation α) : Prop := ∀ job, Keeps p job fun _ job' => job' = job

theorem idle_perform {e : Eff} (free : JobFree e) : Idle (Prog.perform e) :=
  fun job => ⟨allows_free free job, fun r _ => jot_free free job r⟩

theorem Idle.keeps {β : Type} {p : Operation α} {f : α → Operation β} {Q : β → Option Id → Prop}
    (idle : Idle p) (rest : ∀ a, Keeps (f a) job Q) : Keeps (p >>= f) job Q := by
  refine (idle job).bind ?_
  rintro a _ rfl
  exact rest a

theorem publisher_idle (certificate : Id) (p : CertificateFiles.Files α) :
    Idle (publisher certificate p) := by
  intro job
  induction p with
  | ret a => exact rfl
  | call e k ih => exact ⟨trivial, fun r _ => ih r⟩

theorem create_keeps {run : Run} {k : Except Error Run → Operation α} {Q : α → Option Id → Prop}
    (running : run.status = .running) (refused : ∀ err, Keeps (k (.error err)) job Q)
    (created : ∀ run, Keeps (k (.ok run)) (some run.id) Q) :
    Keeps (store (.createJob run) >>= k) job Q := by
  refine follows_call.mpr ⟨running, fun r _ => ?_⟩
  cases r with
  | error err => exact refused err
  | ok run => exact created run

theorem finish_keeps {id : Id} {status : JobStatus} {exit : Int} {output message : Bytes}
    {k : Except Error Unit → Operation α} {Q : α → Option Id → Prop} (ends : status ≠ .running)
    (rest : ∀ r, Keeps (k r) none Q) :
    Keeps (store (.finishJob id status exit output message) >>= k) (some id) Q :=
  follows_call.mpr ⟨⟨rfl, ends⟩, fun r _ => rest r⟩

theorem failRenewal_keeps (value : Certificate) (id : Id) (exit : Int) (output : Bytes)
    (renewErr : Error) (eventType actor clientIP : String) :
    Tends (failRenewal value id exit output renewErr eventType actor clientIP) (some id) := by
  refine finish_keeps (by decide) fun _ => keeps_free trivial fun _ => ?_
  exact keeps_free trivial fun _ => trivial

theorem succeed_keeps (value id : Id) (exit : Int) (output : Bytes)
    (eventType actor clientIP : String) (detail : List (String × Detail))
    (f : Except Error Certificate → α) :
    Tends (do
      let _ ← store (.finishJob id .succeeded exit output [])
      let _ ← audit value eventType actor clientIP "succeeded" detail
      let found ← get value
      return f found) (some id) := by
  refine finish_keeps (by decide) fun _ => keeps_free trivial fun _ => ?_
  exact keeps_free trivial fun _ => trivial

theorem finishIssue_keeps (value : Certificate) (id : Id) (obtained : Obtained)
    {mark : Certificate → Operation (Except Error Unit)} (marks : ∀ c, Idle (mark c))
    (eventType actor clientIP : String) :
    Tends (finishIssue value id obtained mark eventType actor clientIP) (some id) := by
  cases obtained with
  | panicked => exact trivial
  | failed exit err => exact failRenewal_keeps value id exit [] err eventType actor clientIP
  | material material =>
    refine keeps_free trivial fun now => ?_
    split
    · exact failRenewal_keeps value id _ _ _ eventType actor clientIP
    · refine (publisher_idle value.id _).keeps fun published => ?_
      cases published with
      | error err => exact failRenewal_keeps value id _ _ _ eventType actor clientIP
      | ok _ =>
        refine (marks _).keeps fun marked => ?_
        cases marked with
        | error err => exact trivial
        | ok _ => exact succeed_keeps value.id id _ _ eventType actor clientIP _ _

theorem renewMaterial_idle (value : Certificate) (force : Bool) :
    Idle (renewMaterial s value force) := by
  intro job
  unfold renewMaterial
  split
  · split
    · exact keeps_free trivial fun _ => rfl
    · exact rfl
  · split
    · split
      · split
        · refine keeps_free trivial fun resolved => ?_
          cases resolved with
          | error err => exact rfl
          | ok values => exact keeps_free trivial fun _ => rfl
        · exact rfl
      · exact keeps_free trivial fun _ => rfl
    · exact rfl
  · exact rfl

theorem issueMaterial_idle (value : Certificate) : Idle (issueMaterial s value) := by
  intro job
  unfold issueMaterial
  split
  · split
    · exact keeps_free trivial fun _ => rfl
    · exact rfl
  · split
    · split
      · split
        · refine keeps_free trivial fun resolved => ?_
          cases resolved with
          | error err => exact rfl
          | ok values => exact keeps_free trivial fun _ => rfl
        · exact rfl
      · split
        · exact keeps_free trivial fun _ => rfl
        · exact rfl
    · exact rfl
  · exact rfl

theorem issueExistingCertificate_keeps (value : Certificate) (actor clientIP : String) :
    Tends (issueExistingCertificate s value actor clientIP) job := by
  unfold issueExistingCertificate
  split
  · exact trivial
  · refine keeps_free trivial fun marked => ?_
    cases marked with
    | error err => exact trivial
    | ok _ =>
      refine create_keeps rfl (fun err => keeps_free trivial fun _ => trivial) fun run => ?_
      refine (issueMaterial_idle value).keeps fun obtained => ?_
      exact finishIssue_keeps value run.id obtained
        (fun c => idle_perform (e := .store (.markCertificateIssued c)) trivial) _ _ _

theorem renewLocked_keeps (value : Certificate) (force : Bool) (jobType : JobType)
    (eventType actor clientIP : String) :
    Tends (renewLocked s value force jobType eventType actor clientIP) job := by
  unfold renewLocked
  split
  · exact trivial
  · refine keeps_free trivial fun marked => ?_
    cases marked with
    | error err => exact trivial
    | ok _ =>
      refine create_keeps rfl (fun err => trivial) fun run => ?_
      refine (renewMaterial_idle value force).keeps fun obtained => ?_
      exact finishIssue_keeps value run.id obtained
        (fun c => idle_perform (e := .store (.markCertificateRenewed c)) trivial) _ _ _

/-- The lock does not matter. -/
theorem locked_keeps {busy : α} {id : Id} {p : Operation α} (h : Tends p job) :
    Tends (do
      let lock ← loadOrStore id
      match ← tryLock lock with
      | false => return busy
      | true =>
        let result ← p
        let _ ← unlock lock
        return result) job := by
  refine keeps_free trivial fun lock => keeps_free trivial fun taken => ?_
  cases taken with
  | false => exact trivial
  | true => exact h.bind fun result job' _ => keeps_free trivial fun _ => trivial

theorem issueExisting_keeps (id : Id) (force : Bool) (jobType : JobType)
    (eventType actor clientIP : String) :
    Tends (issueExisting s id force jobType eventType actor clientIP) job := by
  refine keeps_free trivial fun found => ?_
  cases found with
  | error err => exact trivial
  | ok value =>
    apply locked_keeps
    unfold issueLocked
    split
    · split
      · exact trivial
      · exact issueExistingCertificate_keeps value actor clientIP
    · exact renewLocked_keeps value force jobType eventType actor clientIP

theorem renew_keeps (id : Id) (force : Bool) (actor clientIP : String) :
    Tends (renew s id force actor clientIP) job := by
  unfold renew
  split
  · exact issueExisting_keeps id force _ _ actor clientIP
  · exact issueExisting_keeps id force _ _ actor clientIP

theorem issue_keeps (id : Id) (actor clientIP : String) :
    Tends (issue s id actor clientIP) job := by
  refine keeps_free trivial fun found => ?_
  cases found with
  | error err => exact trivial
  | ok value =>
    dsimp only
    split
    · exact trivial
    · exact issueExisting_keeps id true _ _ actor clientIP

theorem revoke_keeps (id : Id) (actor clientIP : String) :
    Tends (revoke s id actor clientIP) job := by
  refine keeps_free trivial fun found => ?_
  cases found with
  | error err => exact trivial
  | ok value =>
    dsimp only
    split
    · exact trivial
    · split
      · exact trivial
      · apply locked_keeps
        refine create_keeps rfl (fun err => trivial) fun run => keeps_free trivial fun revoked => ?_
        cases revoked with
        | error refusal =>
          refine finish_keeps (by decide) fun _ => keeps_free trivial fun _ => trivial
        | ok _ =>
          refine keeps_free trivial fun marked => ?_
          cases marked with
          | error err => exact trivial
          | ok _ => exact succeed_keeps value.id run.id _ _ _ actor clientIP _ _

theorem issueCreated_keeps (value : Certificate) (jobType : JobType)
    {engine : Certificate → Operation Obtained} (asks : ∀ c, Idle (engine c))
    (detail : List (String × Detail)) (actor clientIP : String) :
    Tends (issueCreated value jobType engine detail actor clientIP) job := by
  refine keeps_free trivial fun stored => ?_
  cases stored with
  | error err => exact trivial
  | ok stored =>
    refine create_keeps rfl (fun err => keeps_free trivial fun _ => trivial) fun run => ?_
    refine (asks stored).keeps fun obtained => ?_
    cases obtained with
    | panicked => exact trivial
    | failed exit err =>
      refine finish_keeps (by decide) fun _ => keeps_free trivial fun _ => ?_
      exact keeps_free trivial fun _ => trivial
    | material material =>
      refine keeps_free trivial fun now => ?_
      split
      · exact trivial
      · refine (publisher_idle stored.id _).keeps fun published => ?_
        cases published with
        | error err =>
          exact finish_keeps (by decide) fun _ => keeps_free trivial fun _ => trivial
        | ok _ =>
          refine keeps_free trivial fun marked => ?_
          cases marked with
          | error err => exact trivial
          | ok _ => exact succeed_keeps stored.id run.id _ _ _ actor clientIP _ _

theorem createACME_keeps (request : CreateACMERequest) (actor clientIP : String) :
    Tends (createACME s request actor clientIP) job := by
  unfold createACME
  split
  · exact trivial
  split
  · exact trivial
  split
  · exact trivial
  split
  · exact trivial
  have values : Idle (challengeValues s request.challengeType request.dnsCredentialID) := by
    intro job
    unfold challengeValues
    split
    · split
      · exact rfl
      · exact keeps_free trivial fun _ => rfl
    · split <;> exact rfl
  refine values.keeps fun resolved => ?_
  cases resolved with
  | error err => exact trivial
  | ok values =>
    refine issueCreated_keeps _ _ (fun stored job => ?_) _ actor clientIP
    exact keeps_free trivial fun _ => rfl

theorem createSelfSigned_keeps (request : CreateSelfSignedRequest) (actor clientIP : String) :
    Tends (createSelfSigned s request actor clientIP) job := by
  unfold createSelfSigned
  split
  · exact trivial
  split
  · exact trivial
  split
  · exact trivial
  split
  · exact trivial
  refine issueCreated_keeps _ _ (fun stored job => ?_) _ actor clientIP
  split
  · exact keeps_free trivial fun _ => rfl
  · exact rfl

theorem update_keeps (id : Id) (request : UpdateRequest) (actor clientIP : String) :
    Tends (update id request actor clientIP) job := by
  unfold update
  dsimp only
  split
  · exact trivial
  split
  · exact trivial
  refine keeps_free trivial fun found => ?_
  cases found with
  | error err => exact trivial
  | ok _ =>
    refine keeps_free trivial fun updated => ?_
    cases updated with
    | error err => exact trivial
    | ok _ => exact keeps_free trivial fun _ => keeps_free trivial fun _ => trivial

theorem deleteRecord_keeps (value : Certificate) (deleteFiles : Bool) (result : BackupResult)
    (actor clientIP : String) :
    Tends (deleteRecord value deleteFiles result actor clientIP) job := by
  refine keeps_free trivial fun deleted => ?_
  cases deleted with
  | error err => exact trivial
  | ok _ =>
    dsimp only
    split
    · refine (publisher_idle value.id _).keeps fun removed => ?_
      cases removed with
      | error err => exact trivial
      | ok _ => exact keeps_free trivial fun _ => trivial
    · exact keeps_free trivial fun _ => trivial

theorem delete_keeps (id : Id) (deleteFiles : Bool) (actor clientIP : String) :
    Tends (delete id deleteFiles actor clientIP) job := by
  refine keeps_free trivial fun found => ?_
  cases found with
  | error err => exact trivial
  | ok value =>
    apply locked_keeps
    unfold deleteLocked
    split
    · refine (publisher_idle value.id _).keeps fun backedUp => ?_
      obtain ⟨result, outcome⟩ := backedUp
      cases outcome with
      | error err => exact keeps_free trivial fun audited => by cases audited <;> exact trivial
      | ok _ => exact deleteRecord_keeps value true result actor clientIP
    · exact deleteRecord_keeps value false _ actor clientIP

theorem renewalAttempt_keeps (id : Id) {again : Error → Operation Attempts}
    (more : ∀ err job, Tends (again err) job) : Tends (renewalAttempt s id again) job := by
  refine (renew_keeps id false "scheduler" "").bind fun outcome job' _ => ?_
  cases outcome with
  | ok value => exact trivial
  | panicked => exact trivial
  | error err =>
    dsimp only
    split
    · exact trivial
    · exact more err job'

theorem renewalAttempts_keeps (policy : Policy) (id : Id) (left : Nat) :
    Tends (renewalAttempts s policy id left) job := by
  induction left generalizing job with
  | zero => exact renewalAttempt_keeps id fun err job => trivial
  | succ left ih =>
    refine renewalAttempt_keeps id fun err job => keeps_free trivial fun waited => ?_
    cases waited with
    | false => exact trivial
    | true => exact ih

theorem worker_keeps (policy : Policy) (scan : Nat) (id : Id) :
    Tends (renewalWorker s policy scan id) job := by
  have leave : ∀ job, Tends (do
      let _ ← Prog.perform (Eff.releaseSlot scan)
      Prog.perform (Eff.workerDone scan id)) job :=
    fun job => keeps_free trivial fun _ => ⟨trivial, fun _ _ => trivial⟩
  refine keeps_free trivial fun acquired => ?_
  cases acquired with
  | false => exact ⟨trivial, fun _ _ => trivial⟩
  | true =>
    refine (renewalAttempts_keeps policy id policy.retryCount).bind fun attempts job' _ => ?_
    cases attempts with
    | panicked => exact trivial
    | cancelled => exact leave job'
    | ended result =>
      cases result with
      | none => exact leave job'
      | some renewErr =>
        dsimp only
        split
        · exact leave job'
        · exact keeps_free trivial fun _ => leave job'

theorem startWorkers_keeps (policy : Policy) (scan : Nat) (items : List Certificate) :
    Tends (startWorkers policy scan items) job := by
  induction items with
  | nil => exact trivial
  | cons item rest ih =>
    refine keeps_free trivial fun now => ?_
    split
    · exact keeps_free trivial fun _ => keeps_free trivial fun _ => ih
    · exact ih

theorem scan_keeps (policy : Policy) : Tends (runRenewalScan policy) job := by
  refine keeps_free trivial fun listed => ?_
  cases listed with
  | error err => exact trivial
  | ok values =>
    refine keeps_free trivial fun scan => ?_
    refine (startWorkers_keeps policy scan values).bind fun _ job' _ => ?_
    refine keeps_free trivial fun _ => keeps_free trivial fun errors => ?_
    cases Error.joinAll errors <;> exact trivial

theorem programOf_keeps (s : Service) (request : Request) : Tends (programOf s request) none := by
  have void : ∀ {α β : Type} {p : Operation α} {f : α → β}, Tends p none →
      Tends (p >>= fun r => .ret (f r)) none :=
    fun h => h.bind fun _ _ _ => trivial
  cases request with
  | list => exact keeps_free trivial fun _ => trivial
  | get id => exact keeps_free trivial fun _ => trivial
  | readFile id fileName =>
    refine void (keeps_free trivial fun found => ?_)
    cases found with
    | error err => exact trivial
    | ok value =>
      refine (publisher_idle id _).keeps fun content => ?_
      cases content <;> exact trivial
  | availableFiles id =>
    refine void (keeps_free trivial fun found => ?_)
    cases found with
    | error err => exact trivial
    | ok value => exact (publisher_idle id _ none).mono fun _ _ _ => trivial
  | update id request actor clientIP => exact void (update_keeps id request actor clientIP)
  | createSelfSigned request actor clientIP =>
    exact void (createSelfSigned_keeps request actor clientIP)
  | createACME request actor clientIP => exact void (createACME_keeps request actor clientIP)
  | issue id actor clientIP => exact void (issue_keeps id actor clientIP)
  | renew id force actor clientIP => exact void (renew_keeps id force actor clientIP)
  | revoke id actor clientIP => exact void (revoke_keeps id actor clientIP)
  | delete id deleteFiles actor clientIP => exact delete_keeps id deleteFiles actor clientIP
  | scan policy => exact scan_keeps policy
  | worker policy scan id => exact void (worker_keeps policy scan id)

end Operations

/-- The certificate was there and has been deleted. -/
def Gone (db : Db) (id : Id) : Prop := id < db.certificates.next ∧ db.row id = none

/-- A link to a certificate stays, or it is lost with the certificate. -/
def Linked (gone : Id → Prop) (link link' : Option Id) : Prop :=
  link' = link ∨ link' = none ∧ ∀ id, link = some id → gone id

theorem Linked.trans {gone gone' : Id → Prop} {link link' link'' : Option Id}
    (h : Linked gone link link') (h' : Linked gone' link' link'')
    (stays : ∀ id, gone id → gone' id) : Linked gone' link link'' := by
  rcases h with rfl | ⟨rfl, lost⟩
  · exact h'
  · right
    refine ⟨?_, fun id named => stays id (lost id named)⟩
    rcases h' with rfl | ⟨rfl, -⟩ <;> rfl

/-- What one job row may become. A link to a certificate goes with the certificate; a job
that has ended otherwise stays as it is, and every job keeps what it began with. -/
structure Later (gone : Id → Prop) (r r' : Run) : Prop where
  id : r'.id = r.id
  jobType : r'.jobType = r.jobType
  startedAt : r'.startedAt = r.startedAt
  attempt : r'.attempt = r.attempt
  link : Linked gone r.certificateID r'.certificateID
  ended : r.status ≠ .running → r' = { r with certificateID := r'.certificateID }

theorem Later.refl (gone : Id → Prop) (r : Run) : Later gone r r :=
  ⟨rfl, rfl, rfl, rfl, Or.inl rfl, fun _ => rfl⟩

theorem Later.trans {gone gone' : Id → Prop} {r r' r'' : Run} (h : Later gone r r')
    (h' : Later gone' r' r'') (stays : ∀ id, gone id → gone' id) : Later gone' r r'' where
  id := h'.id.trans h.id
  jobType := h'.jobType.trans h.jobType
  startedAt := h'.startedAt.trans h.startedAt
  attempt := h'.attempt.trans h.attempt
  link := h.link.trans h'.link stays
  ended done := by
    have first := h.ended done
    have still : r'.status ≠ .running := by
      rw [first]
      exact done
    have second := h'.ended still
    rw [second, first]

/-- An audit event stays as it is, but for the link. -/
structure Kept (gone : Id → Prop) (e e' : Event) : Prop where
  link : Linked gone e.certificateID e'.certificateID
  rest : e' = { e with certificateID := e'.certificateID }

theorem Kept.refl (gone : Id → Prop) (e : Event) : Kept gone e e := ⟨Or.inl rfl, rfl⟩

theorem Kept.trans {gone gone' : Id → Prop} {e e' e'' : Event} (h : Kept gone e e')
    (h' : Kept gone' e' e'') (stays : ∀ id, gone id → gone' id) : Kept gone' e e'' where
  link := h.link.trans h'.link stays
  rest := by
    rw [h'.rest, h.rest]

/-- What one state of the store makes of the history in another: only what was linked to a
deleted certificate has lost its link, and a deleted certificate stays deleted. -/
structure Continues (db db' : Db) : Prop where
  jobs : ∀ r ∈ db.jobs.rows, ∃ r' ∈ db'.jobs.rows, Later (Gone db') r r'
  events : ∀ e ∈ db.audits.rows, ∃ e' ∈ db'.audits.rows, Kept (Gone db') e e'
  gone : ∀ id, Gone db id → Gone db' id

theorem Continues.refl (db : Db) : Continues db db :=
  ⟨fun r there => ⟨r, there, .refl _ r⟩, fun e there => ⟨e, there, .refl _ e⟩, fun _ gone => gone⟩

theorem Continues.trans {db db' db'' : Db} (h : Continues db db') (h' : Continues db' db'') :
    Continues db db'' := by
  constructor
  · intro r there
    obtain ⟨r', there', later⟩ := h.jobs r there
    obtain ⟨r'', there'', later'⟩ := h'.jobs r' there'
    exact ⟨r'', there'', later.trans later' h'.gone⟩
  · intro e there
    obtain ⟨e', there', kept⟩ := h.events e there
    obtain ⟨e'', there'', kept'⟩ := h'.events e' there'
    exact ⟨e'', there'', kept.trans kept' h'.gone⟩
  · exact fun id gone => h'.gone id (h.gone id gone)

section Store
variable {B : Backend} {db : Db}

theorem linked_unlinked {gone : Id → Prop} {id : Id} (lost : gone id) (link : Option Id) :
    Linked gone link (if link = some id then none else link) := by
  split
  · rename_i named
    exact Or.inr ⟨rfl, fun id' named' => Option.some.inj (named.symm.trans named') ▸ lost⟩
  · exact Or.inl rfl

theorem later_finished (now : Nat → Time) (status : JobStatus) (exit : Int)
    (output message : Bytes) {gone : Id → Prop} {r : Run} (running : r.status = .running) :
    Later gone r (finishRun now status exit output message r) :=
  ⟨rfl, rfl, rfl, rfl, Or.inl rfl, fun ended => absurd running ended⟩

/-- Tables whose rows a statement leaves, or adds to. -/
theorem continues_of_rows {db' : Db} (jobs : ∀ r ∈ db.jobs.rows, r ∈ db'.jobs.rows)
    (events : ∀ e ∈ db.audits.rows, e ∈ db'.audits.rows) (gone : ∀ id, Gone db id → Gone db' id) :
    Continues db db' :=
  ⟨fun r there => ⟨r, jobs r there, .refl _ r⟩, fun e there => ⟨e, events e there, .refl _ e⟩,
    gone⟩

/-- A deleted certificate stays deleted: its number is not given out again. -/
theorem gone_act {q : Query} {id : Id} (h : Gone db id) : Gone (act B q db).2 id := by
  refine ⟨Nat.lt_of_lt_of_le h.1 (act_next B q db), ?_⟩
  cases act_row B q db id with
  | same row => exact row.trans h.2
  | changed u change row => rw [row, h.2, Option.map_none]
  | created value query new row => exact absurd new (Nat.ne_of_lt h.1)
  | deleted event query present row => exact row

theorem continues_insertEvent (event : Event) : Continues db (db.insertEvent event) :=
  continues_of_rows (fun _ there => there) (fun _ there => List.mem_append_left _ there)
    fun _ gone => gone

theorem continues_deleted {id : Id} {c : Certificate} (there : db.row id = some c) :
    Continues db (db.deleteCertificate id) := by
  have row : ∀ key, (db.deleteCertificate id).row key = if key = id then none else db.row key :=
    fun key => Db.row_deleteCertificate db id key
  have old : id < db.certificates.next := Db.lt_next_of_row there
  have lost : Gone (db.deleteCertificate id) id := ⟨old, by rw [row, if_pos rfl]⟩
  refine ⟨fun r there => ⟨_, List.mem_map_of_mem there, ?_⟩,
    fun e there => ⟨_, List.mem_map_of_mem there, ?_⟩, fun key gone => ⟨gone.1, ?_⟩⟩
  · exact ⟨rfl, rfl, rfl, rfl, linked_unlinked lost r.certificateID, fun _ => rfl⟩
  · exact ⟨linked_unlinked lost e.certificateID, rfl⟩
  · rw [row, gone.2, ite_self]

/-- A statement continues the history as long as it ends no job that has ended. -/
theorem act_continues {q : Query} (running : ∀ id status exit output message,
    q = .finishJob id status exit output message →
      ∀ r ∈ db.jobs.rows, r.id = id → r.status = .running) :
    Continues db (act B q db).2 := by
  have gone : ∀ id, Gone db id → Gone (act B q db).2 id := fun _ => gone_act
  cases q with
  | createJob run =>
    simp only [act]
    split
    · exact continues_of_rows (fun _ there => List.mem_append_left _ there) (fun _ there => there)
        fun _ gone => gone
    · exact .refl db
  | createAuditEvent event =>
    simp only [act]
    split
    · exact continues_insertEvent _
    · exact .refl db
  | deleteCertificateWithAudit id event =>
    simp only [act]
    split
    · split
      · exact .refl db
      · rename_i c found
        exact (continues_insertEvent _).trans (continues_deleted (c := c) found)
    · exact .refl db
  | finishJob id status exit output message =>
    refine ⟨fun r there => ⟨_, List.mem_map_of_mem there, ?_⟩,
      fun e there => ⟨e, there, .refl _ e⟩, gone⟩
    by_cases same : r.id = id
    · rw [if_pos same]
      exact later_finished _ _ _ _ _ (running _ _ _ _ _ rfl r there same)
    · rw [if_neg same]
      exact .refl _ r
  | certificates => exact .refl db
  | certificate | createCertificate | markCertificateIssued | markCertificateRenewed
  | markCertificateFailed | setCertificateStatus | updateCertificateSettings =>
    refine continues_of_rows (fun _ there => ?_) (fun _ there => ?_) gone <;> simp only [act] <;>
      repeat' first | exact there | split

theorem exec_continues {q : Query} (running : ∀ id status exit output message,
    q = .finishJob id status exit output message →
      ∀ r ∈ db.jobs.rows, r.id = id → r.status = .running) :
    Continues db (SqliteStore.exec B q db).2 := by
  have ticked : ∀ db : Db, Continues db db.tick :=
    fun db => continues_of_rows (fun _ there => there) (fun _ there => there) fun _ gone => gone
  unfold SqliteStore.exec
  split
  · exact ticked db
  · exact (act_continues running).trans (ticked _)

/-- The recovery at the start ends what was running. -/
theorem continues_recovered (now : Time) : Continues db (markInterruptedJobs now db) := by
  refine ⟨fun r there => ⟨_, List.mem_map_of_mem there, ?_⟩,
    fun e there => ⟨e, there, .refl _ e⟩, fun _ gone => gone⟩
  split
  · rename_i running
    exact ⟨rfl, rfl, rfl, rfl, Or.inl rfl, fun ended => absurd running ended⟩
  · exact .refl _ r

/-- A job that is running goes on until it is ended. -/
theorem running_kept {q : Query} {j : Id} (open_ : ∀ status exit output message,
    q ≠ .finishJob j status exit output message)
    (h : ∃ r, db.job j = some r ∧ r.status = .running) :
    ∃ r, (SqliteStore.exec B q db).2.job j = some r ∧ r.status = .running := by
  obtain ⟨r, there, running⟩ := h
  have same : db.job j = some r → ∃ r, db.job j = some r ∧ r.status = .running :=
    fun there => ⟨r, there, running⟩
  unfold SqliteStore.exec
  split
  · exact same there
  change ∃ r, (act B q db).2.job j = some r ∧ _
  cases q with
  | createJob run =>
    simp only [act]
    split
    · rw [Db.job_insertJob, if_neg (Nat.ne_of_lt (KeyedTables.Table.lt_next_of_find? there))]
      exact same there
    · exact same there
  | finishJob key status exit output message =>
    refine ⟨r, ?_, running⟩
    refine (Db.job_updateJob db key j (finishRun _ status exit output message) fun _ => rfl).trans ?_
    rw [if_neg]
    · exact there
    · rintro rfl
      exact open_ _ _ _ _ rfl
  | deleteCertificateWithAudit id event =>
    simp only [act]
    split
    · split
      · exact same there
      · refine ⟨Db.unlinkRun id r, ?_, running⟩
        refine (KeyedTables.Table.find?_mapRows (Db.unlinkRun id) (fun _ => rfl) j).trans ?_
        exact congrArg (Option.map (Db.unlinkRun id)) there
    · exact same there
  | _ => simp only [act]; repeat' first | exact same there | split

end Store

abbrev Noted := Config Eff Ans World (Local × Option Id) (Outcome Unit)

abbrev noted (env : Environment) (s : Service) :
    System Eff Ans World (Local × Option Id) (Outcome Unit) :=
  (pool env s).noting (fun _ => none) jot

/-- The job that a thread works on is running. -/
def standing : Assertion Eff Ans World (Local × Option Id) (Outcome Unit) where
  world _ := True
  thread _ th w := ∀ j, th.seen.2 = some j → ∃ r, w.db.job j = some r ∧ r.status = .running

abbrev Conforming (env : Environment) (s : Service) :
    Assertion Eff Ans World (Local × Option Id) (Outcome Unit) :=
  conforming (noted env s) (fun _ _ => True) (fun x e => allows x.2 e) fun _ _ => True

structure Known (env : Environment) (s : Service) (c : Noted) : Prop where
  conforms : (Conforming env s).Holds c
  alone : Exclusive (fun (x : Local × Option Id) j => x.2 = some j) c

section Runs
variable {env : Environment} {s : Service}

theorem noted_born {t : Nat} {e : Eff} {th : Thread Eff Ans (Local × Option Id) (Outcome Unit)}
    (born : (noted env s).starts th ∨ (noted env s).spawn t e = some th) :
    ∃ request, th = (thread s request).beside fun _ => none := by
  rcases born with ⟨own, ⟨request, -, rfl⟩, rfl⟩ | born
  · exact ⟨request, rfl⟩
  · obtain ⟨own, spawned, rfl⟩ := Option.map_eq_some_iff.mp born
    obtain ⟨request, rfl⟩ := spawn_some spawned
    exact ⟨request, rfl⟩

theorem conforming_kept {D : Discipline Eff Ans World (Local × Option Id) (Outcome Unit)} :
    (Conforming env s).Stable (noted env s) D fun _ => True := by
  apply conforming_stable
  · intro t e w
    trivial
  · intro th starts
    obtain ⟨request, rfl⟩ := noted_born (t := 0) (e := .now) (Or.inl starts)
    exact follows_beside (programOf_keeps s request) _
  · intro t e th born
    obtain ⟨request, rfl⟩ := noted_born (Or.inr born)
    exact follows_beside (programOf_keeps s request) _

/-- Where a thread gets a job, the job is new and running. -/
theorem jot_some {t : Nat} {e : Eff} {w : World} {job : Option Id} {j : Id}
    (allowed : allows job e) (got : jot job e (exec env t e w).1 = some j) :
    job = some j ∧ (∀ status exit output message, e ≠ .store (.finishJob j status exit output message)) ∨
      j = w.db.jobs.next ∧
        ∃ r, (exec env t e w).2.db.job j = some r ∧ r.status = .running := by
  by_cases free : JobFree e
  · left
    rw [jot_free free] at got
    refine ⟨got, ?_⟩
    rintro status exit output message rfl
    exact free
  cases e with
  | store q =>
    cases q with
    | createJob run =>
      have running : run.status = .running := allowed
      change jot job (.store (.createJob run)) (SqliteStore.exec env.backend _ w.db).1 = some j at got
      change job = some j ∧ _ ∨ j = _ ∧ ∃ r, (SqliteStore.exec env.backend _ w.db).2.job j = some r ∧ _
      unfold SqliteStore.exec at got ⊢
      cases fails : env.backend.fails w.db.calls with
      | some canceled =>
        rw [fails] at got
        exact Or.inl ⟨got, by simp⟩
      | none =>
        rw [fails] at got
        simp only [SqliteStore.act] at got ⊢
        split at got
        · rename_i known
          cases got
          simp only [if_pos known]
          refine Or.inr ⟨rfl, ?_⟩
          exact ⟨_, (Db.job_insertJob w.db _ _).trans (if_pos rfl), running⟩
        · exact Or.inl ⟨got, by simp⟩
    | finishJob => cases got
    | _ => exact absurd trivial free
  | _ => exact absurd trivial free

/-- What the thread does not end goes on. -/
theorem exec_running {t : Nat} {e : Eff} {w : World} {j : Id}
    (other : ∀ status exit output message, e ≠ .store (.finishJob j status exit output message))
    (h : ∃ r, w.db.job j = some r ∧ r.status = .running) :
    ∃ r, (exec env t e w).2.db.job j = some r ∧ r.status = .running := by
  by_cases stores : ∃ q, e = .store q
  · obtain ⟨q, rfl⟩ := stores
    refine running_kept (fun status exit output message same => ?_) h
    exact other status exit output message (congrArg Eff.store same)
  · rw [ServiceSteps.exec_db fun q same => stores ⟨q, same⟩]
    exact h

theorem standing_kept {D : Discipline Eff Ans World (Local × Option Id) (Outcome Unit)} :
    standing.Stable (noted env s) D (Known env s) where
  own c t e k x known h running able ok := by
    refine ⟨trivial, fun j got => ?_⟩
    have allowed := allowed_of_conforming known.conforms running
    rcases jot_some allowed got with ⟨mine, other⟩ | ⟨-, new⟩
    · exact exec_running other (h.thread t _ running j mine)
    · exact new
  other c t e k x u th known h running able ok away there j mine := by
    apply exec_running ?_ (h.thread u th there j mine)
    rintro status exit output message rfl
    have allowed : x.2 = some j ∧ status ≠ .running :=
      allowed_of_conforming known.conforms running
    exact away (known.alone u t th _ j there running mine allowed.1)
  start c t th known h free starts ok j mine := by
    obtain ⟨request, rfl⟩ := noted_born (t := t) (e := .now) (Or.inl starts)
    cases mine
  spawn c t e k x u child known h running born free ok j mine := by
    obtain ⟨request, rfl⟩ := noted_born (Or.inr born)
    cases mine
  crash c known h ok := trivial

theorem alone_kept {D : Discipline Eff Ans World (Local × Option Id) (Outcome Unit)} :
    Exclusive.Kept (fun (x : Local × Option Id) j => x.2 = some j) (noted env s) D
      fun c => Known env s c ∧ standing.Holds c where
  call c t e k x j known running ok got := by
    have allowed := allowed_of_conforming known.1.conforms running
    rcases jot_some allowed got with ⟨mine, -⟩ | ⟨rfl, -⟩
    · exact Or.inl mine
    · right
      intro u th there mine
      obtain ⟨r, stored, -⟩ := known.2.thread u th there _ mine
      exact absurd (KeyedTables.Table.lt_next_of_find? stored) (Nat.lt_irrefl _)
  start th j starts := by
    obtain ⟨request, rfl⟩ := noted_born (t := 0) (e := .now) (Or.inl starts)
    simp [Thread.beside]
  spawn t e th j born := by
    obtain ⟨request, rfl⟩ := noted_born (Or.inr born)
    simp [Thread.beside]

theorem Known.step {D : Discipline Eff Ans World (Local × Option Id) (Outcome Unit)} {c c' : Noted}
    (known : Known env s c) (h : standing.Holds c) (hs : Step (noted env s) D c c') :
    Known env s c' ∧ standing.Holds c' :=
  ⟨⟨conforming_kept.step trivial known.conforms hs, alone_kept.step ⟨known, h⟩ known.alone hs⟩,
    standing_kept.step known h hs⟩

/-- A call continues the history. -/
theorem Known.continues {c : Noted} (known : Known env s c) (h : standing.Holds c) {t : Nat}
    {e : Eff}
    {k : Ans e → Operation (Outcome Unit)} {x : Local × Option Id}
    (running : c.threads t = some ⟨.call e k, x⟩) :
    Continues c.world.db (exec env t e c.world).2.db := by
  by_cases stores : ∃ q, e = .store q
  · obtain ⟨q, rfl⟩ := stores
    refine exec_continues ?_
    rintro id status exit output message rfl r there same
    have allowed : x.2 = some id ∧ status ≠ .running :=
      allowed_of_conforming known.conforms running
    obtain ⟨r', stored, going⟩ := h.thread t _ running id allowed.1
    obtain ⟨there', same'⟩ := KeyedTables.Table.find?_eq_some_iff.mp stored
    have one : r = r' :=
      List.inj_on_of_nodup_map c.world.db.jobs.unique there there' (same.trans same'.symm)
    rw [one]
    exact going
  · rw [ServiceSteps.exec_db fun q same => stores ⟨q, same⟩]
    exact .refl _

theorem Known.step_continues {D : Discipline Eff Ans World (Local × Option Id) (Outcome Unit)}
    {c c' : Noted} (known : Known env s c) (h : standing.Holds c)
    (hs : Step (noted env s) D c c') : Continues c.world.db c'.world.db := by
  cases hs with
  | start free starts ok => exact .refl _
  | call running enabled alone ok => exact known.continues h running
  | spawn running enabled child free ok => exact known.continues h running
  | finish running => exact .refl _
  | crash ok => exact continues_recovered _

/-- Between any two moments of any run, with any interleaving and any number of kills and
restarts, the history only continues: no job and no audit event is lost, what a job began
with stays, a job that has ended stays as it has ended, and a link is only lost with the
certificate, which does not come back. -/
theorem history_continues {c₀ c c' : Configuration} (started : ∀ t, c₀.threads t = none)
    (earlier : Reach (pool env s) .any c₀ c) (later : Reach (pool env s) .any c c') :
    Continues c.world.db c'.world.db := by
  obtain ⟨d₀, rfl, empty⟩ := exists_plain (T := Option Id) started
  have nothing : ∀ {P : Prop} {t th}, d₀.threads t = some th → P := by
    intro P t th there
    rw [empty t] at there
    cases there
  have begun : Known env s d₀ ∧ standing.Holds d₀ := by
    refine ⟨⟨⟨trivial, fun t th => nothing⟩, ?_⟩, trivial, fun t th => nothing⟩
    intro t u th th' j there
    exact nothing there
  obtain ⟨d, run, rfl⟩ := Reach.noting (fun _ => none) jot earlier
  obtain ⟨d', run', rfl⟩ := Reach.noting (fun _ => none) jot later
  have known : Known env s d ∧ standing.Holds d :=
    Reach.invariant _ _ (I := fun d => Known env s d ∧ standing.Holds d)
      (fun _ _ h hs => h.1.step h.2 hs) run begun
  have all : (Known env s d' ∧ standing.Holds d') ∧ Continues d.world.db d'.world.db := by
    refine Reach.invariant _ _
      (I := fun e => (Known env s e ∧ standing.Holds e) ∧ Continues d.world.db e.world.db)
      ?_ run' ⟨known, .refl _⟩
    rintro e e' ⟨⟨known, h⟩, sofar⟩ hs
    exact ⟨known.step h hs, sofar.trans (known.step_continues h hs)⟩
  exact all.2

end Runs

/-- A renewal that has just ended its job. -/
def renewed : Option Configuration :=
  playing (fun _ _ _ => true) (List.replicate 27 0)
    (requested sampleWorld [.renew 0 false "admin" ""])

/-- Then the process is killed. -/
theorem history_continues_killed : ∃ c : Configuration,
    Reach (pool sampleEnvironment sampleService) .any (requested sampleWorld []) c ∧
      (∃ r, c.world.db.job 0 = some r ∧ r.status = .succeeded) ∧
      Continues c.world.db (restart sampleEnvironment c.world).db := by
  have played : renewed.map (fun c => (c.world.db.job 0).map Run.status) =
      some (some .succeeded) := by
    decide +kernel
  obtain ⟨c, made, job⟩ := Option.map_eq_some_iff.mp played
  obtain ⟨r, there, status⟩ := Option.map_eq_some_iff.mp job
  have begun : Reach (pool sampleEnvironment sampleService) .any (requested sampleWorld [])
      (requested sampleWorld [.renew 0 false "admin" ""]) :=
    requested_reach _ (fun _ _ => trivial) _ _ (by decide)
  have run := begun.trans (play_reach (fun _ _ _ _ => trivial) made)
  exact ⟨c, run, ⟨r, there, status⟩, history_continues (fun _ => rfl) run (.single (.crash trivial))⟩

end JobHistory
