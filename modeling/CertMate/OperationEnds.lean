import CertMate.Bookkeeping
import CertMate.ServicePool

/-!
# No operation leaves a certificate stuck

One operation at a time. What it has written about a certificate and about its
job is known from its calls, so the records are in order at its end exactly
when no call has gone wrong.
-/
namespace OperationEnds
open CertificateModel CallTrees ServiceWorld CertificateService Bookkeeping
open SqliteStore hiding exec
open ServiceProtocol (Request programOf)

/-- The operations that issue, renew or revoke. -/
inductive Work where
  | createSelfSigned (request : CreateSelfSignedRequest) (actor clientIP : String)
  | createACME (request : CreateACMERequest) (actor clientIP : String)
  | issue (id : Id) (actor clientIP : String)
  | renew (id : Id) (force : Bool) (actor clientIP : String)
  | revoke (id : Id) (actor clientIP : String)
  deriving DecidableEq, Repr

def Work.request : Work → Request
  | .createSelfSigned request actor clientIP => .createSelfSigned request actor clientIP
  | .createACME request actor clientIP => .createACME request actor clientIP
  | .issue id actor clientIP => .issue id actor clientIP
  | .renew id force actor clientIP => .renew id force actor clientIP
  | .revoke id actor clientIP => .revoke id actor clientIP

/-- The certificate that is asked for, unless the operation creates one. -/
def Work.target : Work → Option Id
  | .createSelfSigned _ _ _ | .createACME _ _ _ => none
  | .issue id _ _ | .renew id _ _ _ | .revoke id _ _ => some id

/-- The certificate that an operation works on, from this database on. -/
def subject (target : Option Id) (db : Db) : Id := target.getD db.certificates.next

/-- The certificate says that an operation is working on it. -/
def Stuck (db : Db) (id : Id) : Prop := ∃ row, db.row id = some row ∧ underWay row.status = true

/-- The certificate is free and no job is left running since `db₀`. -/
structure Tidy (target : Option Id) (db₀ db : Db) : Prop where
  free : ¬ Stuck db (subject target db₀)
  ended : ∀ j run, db₀.jobs.next ≤ j → db.job j = some run → run.status ≠ .running

/-- What the books of an operation say of the database it has worked on. -/
structure Agrees (target : Option Id) (db₀ : Db) (b : Books) (db : Db) : Prop where
  stuck : ∀ id row, db.row id = some row →
    (underWay row.status = true ↔ b.pending = some id ∨ Stuck db₀ id)
  pending : ∀ id, b.pending = some id →
    (∃ row, db.row id = some row) ∧ id = subject target db₀ ∧ ¬ Stuck db₀ id
  read : ∀ v, b.read = some v →
    (∃ row, db.row v.id = some row) ∧ (underWay v.status = false → ¬ Stuck db₀ v.id)
  kept : ∀ id row, db₀.row id = some row → ∃ row', db.row id = some row'
  numbered : b.creating = false → db.certificates.next = db₀.certificates.next
  jobs : ∀ j run, db₀.jobs.next ≤ j → db.job j = some run →
    (run.status = .running ↔ b.job = some j)
  job : ∀ j, b.job = some j → db₀.jobs.next ≤ j ∧ ∃ run, db.job j = some run
  next : db₀.jobs.next ≤ db.jobs.next

section Database
variable {target : Option Id} {db₀ db db' : Db} {b b' : Books}

theorem agrees_new (target : Option Id) (db : Db) : Agrees target db .new db where
  stuck id row there := ⟨fun busy => Or.inr ⟨row, there, busy⟩, fun h => by
    obtain ⟨row', there', busy⟩ := h.resolve_left (fun h => nomatch h)
    cases there.symm.trans there'
    exact busy⟩
  pending _ h := nomatch h
  read _ h := nomatch h
  kept _ row there := ⟨row, there⟩
  numbered _ := rfl
  jobs j run old there := absurd (KeyedTables.Table.lt_next_of_find? there) (Nat.not_lt.mpr old)
  job _ h := nomatch h
  next := Nat.le_refl _

/-- What the books do not mention does not matter. -/
theorem Agrees.congr (h : Agrees target db₀ b db) (creating : b'.creating = b.creating)
    (read : b'.read = b.read) (pending : b'.pending = b.pending) (job : b'.job = b.job)
    (rows : ∀ id, db'.row id = db.row id) (runs : ∀ j, db'.job j = db.job j)
    (next : db'.certificates.next = db.certificates.next)
    (jobNext : db'.jobs.next = db.jobs.next) : Agrees target db₀ b' db' where
  stuck id row there := pending ▸ h.stuck id row (rows id ▸ there)
  pending id found := rows id ▸ h.pending id (pending ▸ found)
  read v found := rows v.id ▸ h.read v (read ▸ found)
  kept id row there := rows id ▸ h.kept id row there
  numbered new := next.trans (h.numbered (creating ▸ new))
  jobs j run old there := job ▸ h.jobs j run old (runs j ▸ there)
  job j found := runs j ▸ h.job j (job ▸ found)
  next := jobNext ▸ h.next

/-- A new status is written for the certificate. -/
theorem Agrees.write (h : Agrees target db₀ b db) {id : Id} {u : Update} (status : Status)
    (sets : ∀ c, (u.apply c).status = status) (free : b.pending = none ∨ b.pending = some id)
    (there : ∃ row, db.row id = some row) (own : id = subject target db₀) (fresh : ¬ Stuck db₀ id)
    (creating : b'.creating = b.creating) (read : b'.read = b.read) (job : b'.job = b.job)
    (pending : b'.pending = if underWay status then some id else none) :
    Agrees target db₀ b' (db.update id u) := by
  have present : ∀ j, (∃ row, db.row j = some row) → ∃ row, (db.update id u).row j = some row := by
    rintro j ⟨row, found⟩
    rw [Db.row_update]
    split
    · exact ⟨u.apply row, by rw [found]; rfl⟩
    · exact ⟨row, found⟩
  have other : ∀ j, j ≠ id → (b'.pending = some j ↔ b.pending = some j) := by
    intro j away
    have left : b'.pending ≠ some j := by
      rw [pending]
      split
      · exact fun same => away (Option.some.inj same).symm
      · exact (fun h => nomatch h)
    have right : b.pending ≠ some j := by
      rcases free with none | mine
      · rw [none]
        exact (fun h => nomatch h)
      · rw [mine]
        exact fun same => away (Option.some.inj same).symm
    exact ⟨fun same => absurd same left, fun same => absurd same right⟩
  refine ⟨fun j row found => ?_, fun j found => ?_, fun v found => ?_, fun j row found => ?_,
    fun new => ?_, fun j run old found => ?_, fun j found => ?_, h.next⟩
  · rw [Db.row_update] at found
    by_cases same : j = id
    · subst same
      rw [if_pos rfl] at found
      obtain ⟨c, -, rfl⟩ := Option.map_eq_some_iff.mp found
      rw [sets, pending]
      cases underWay status with
      | true => simp
      | false => simpa using fresh
    · rw [if_neg same] at found
      rw [other j same]
      exact h.stuck j row found
  · rw [pending] at found
    split at found
    · cases found
      exact ⟨present _ there, own, fresh⟩
    · cases found
  · obtain ⟨found', idle⟩ := h.read v (read ▸ found)
    exact ⟨present _ found', idle⟩
  · exact present j (h.kept j row found)
  · exact h.numbered (creating ▸ new)
  · rw [job]
    exact h.jobs j run old found
  · exact h.job j (job ▸ found)

/-- A job is recorded. -/
theorem Agrees.start (h : Agrees target db₀ b db) {run : Run} (idle : b.job = none)
    (running : run.status = .running) (creating : b'.creating = b.creating)
    (read : b'.read = b.read) (pending : b'.pending = b.pending)
    (job : b'.job = some db.jobs.next) : Agrees target db₀ b' (db.insertJob run) := by
  refine ⟨fun j row found => pending ▸ h.stuck j row found,
    fun j found => h.pending j (pending ▸ found), fun v found => h.read v (read ▸ found), h.kept,
    fun new => h.numbered (creating ▸ new),
    fun j r old found => ?_, fun j found => ?_, Nat.le_succ_of_le h.next⟩
  · rw [Db.job_insertJob] at found
    rw [job]
    by_cases last : j = db.jobs.next
    · rw [if_pos last] at found
      cases found
      exact ⟨fun _ => congrArg some last.symm, fun _ => running⟩
    · rw [if_neg last] at found
      refine ⟨fun busy => ?_, fun same => absurd (Option.some.inj same).symm last⟩
      have none := (h.jobs j r old found).mp busy
      rw [idle] at none
      cases none
  · rw [job] at found
    cases found
    exact ⟨h.next, { run with id := db.jobs.next }, by rw [Db.job_insertJob, if_pos rfl]⟩

/-- A job is ended. -/
theorem Agrees.finish (h : Agrees target db₀ b db) {j : Id} {f : Run → Run}
    {keeps : ∀ r, (f r).id = r.id} (ended : ∀ r, (f r).status ≠ .running) (own : b.job = some j)
    (creating : b'.creating = b.creating) (read : b'.read = b.read)
    (pending : b'.pending = b.pending) (job : b'.job = none) :
    Agrees target db₀ b' (db.updateJob j f keeps) := by
  refine ⟨fun i row found => pending ▸ h.stuck i row found,
    fun i found => h.pending i (pending ▸ found), fun v found => h.read v (read ▸ found), h.kept,
    fun new => h.numbered (creating ▸ new),
    fun i r old found => ?_, fun i found => ?_, h.next⟩
  · rw [Db.job_updateJob] at found
    rw [job]
    refine ⟨fun busy => ?_, (fun same => nomatch same)⟩
    by_cases same : i = j
    · rw [if_pos same] at found
      obtain ⟨r', -, rfl⟩ := Option.map_eq_some_iff.mp found
      exact absurd busy (ended r')
    · rw [if_neg same] at found
      have mine := (h.jobs i r old found).mp busy
      rw [own] at mine
      exact absurd (Option.some.inj mine).symm same
  · rw [job] at found
    cases found

/-- A new record is stored, with the status `issuing`. -/
theorem Agrees.create (h : Agrees none db₀ b db) {make : Id → Certificate}
    {made : ∀ n, (make n).id = n} (free : ∀ c ∈ db.certificates.rows,
      c.outputDirectory ≠ (make db.certificates.next).outputDirectory)
    (status : ∀ n, (make n).status = .issuing) (first : b.creating = false)
    (idle : b.pending = none) {v : Certificate} (numbered : v.id = db.certificates.next)
    (busy : underWay v.status = true) (creating : b'.creating = true) (read : b'.read = some v)
    (pending : b'.pending = some v.id) (job : b'.job = b.job) :
    Agrees none db₀ b' (db.insertCertificate make made free) := by
  have same := h.numbered first
  have absent : ¬ Stuck db₀ db.certificates.next := by
    rintro ⟨row, there, -⟩
    have less : db.certificates.next < db₀.certificates.next := Db.lt_next_of_row there
    omega
  have new : (db.insertCertificate make made free).row v.id = some (make db.certificates.next) := by
    rw [Db.row_insertCertificate, if_pos numbered]
  have present : ∀ j, (∃ row, db.row j = some row) →
      ∃ row, (db.insertCertificate make made free).row j = some row := by
    rintro j ⟨row, found⟩
    rw [Db.row_insertCertificate, if_neg (Nat.ne_of_lt (Db.lt_next_of_row found))]
    exact ⟨row, found⟩
  refine ⟨fun j row found => ?_, fun j found => ?_, fun v' found => ?_, fun j row found => ?_,
    fun none => ?_, fun j run old found => ?_, fun j found => ?_, h.next⟩
  · rw [Db.row_insertCertificate] at found
    rw [pending, numbered]
    by_cases last : j = db.certificates.next
    · rw [if_pos last] at found
      cases found
      rw [status]
      exact ⟨fun _ => Or.inl (congrArg some last.symm), fun _ => rfl⟩
    · rw [if_neg last] at found
      rw [h.stuck j row found, idle]
      refine ⟨fun stuck => Or.inr (stuck.resolve_left (fun h => nomatch h)), fun stuck => Or.inr ?_⟩
      exact stuck.resolve_left fun same => last (Option.some.inj same).symm
  · rw [pending] at found
    cases found
    exact ⟨⟨_, new⟩, numbered.trans same, numbered ▸ absent⟩
  · rw [read] at found
    cases found
    refine ⟨⟨_, new⟩, fun idle => ?_⟩
    rw [busy] at idle
    cases idle
  · exact present j (h.kept j row found)
  · rw [creating] at none
    cases none
  · rw [job]
    exact h.jobs j run old found
  · exact h.job j (job ▸ found)

/-- A certificate is read. -/
theorem Agrees.load (h : Agrees target db₀ b db) {id : Id} {v : Certificate}
    (there : db.row id = some v) :
    Agrees target db₀ { b with read := some v } db := by
  refine ⟨h.stuck, h.pending, fun v' found => ?_, h.kept, h.numbered, h.jobs, h.job, h.next⟩
  cases found
  have numbered := Db.id_of_row there
  subst numbered
  refine ⟨⟨v, there⟩, fun free stuck => ?_⟩
  have busy := (h.stuck v.id v there).mpr (Or.inr stuck)
  rw [free] at busy
  cases busy

end Database

section Calls
variable {target : Option Id} {db₀ db : Db} {b : Books} {B : Backend}

/-- Counting a call and noting that it has gone wrong does not matter. -/
theorem Agrees.noted {s : Service} {e : Eff} {r : Ans e}
    (h : Agrees target db₀ (advance b e r) db) : Agrees target db₀ (note s b e r) db.tick :=
  h.congr rfl rfl rfl rfl (fun _ => rfl) (fun _ => rfl) rfl rfl

/-- What the books say of a call of the store that has gone through. -/
theorem Agrees.act (s : Service) (h : Agrees target db₀ b db) {q : Query} {r : Reply q}
    (allowed : allows target b (.store q)) (answered : (SqliteStore.exec B q db).1 = .ok r) :
    Agrees target db₀ (note s b (.store q) (.ok r)) (SqliteStore.exec B q db).2 := by
  obtain ⟨answer, after⟩ := exec_ok answered
  rw [after]
  refine Agrees.noted ?_
  cases q with
  | certificate id =>
    have found := certificate_ok answered
    simp only [SqliteStore.act, found]
    exact h.load found
  | certificates => exact h
  | createCertificate value =>
    obtain ⟨rfl, first, idle, issuing⟩ := allowed
    obtain ⟨rfl, -, -, free⟩ := createCertificate_ok answered
    simp only [SqliteStore.act] at answer ⊢
    split at answer
    · cases answer
    · rw [dif_pos free]
      have busy : underWay (createdValue (B.clock db.calls) value db.certificates.next).status =
          true := by
        change underWay value.status = true
        rw [issuing]
        rfl
      exact h.create free (fun _ => issuing) first idle rfl busy rfl rfl rfl rfl
  | markCertificateIssued value =>
    obtain ⟨there, own, fresh⟩ := h.pending value.id allowed
    exact h.write .active (fun _ => rfl) (Or.inr allowed) there own fresh rfl rfl rfl rfl
  | markCertificateRenewed value =>
    obtain ⟨there, own, fresh⟩ := h.pending value.id allowed
    exact h.write .active (fun _ => rfl) (Or.inr allowed) there own fresh rfl rfl rfl rfl
  | markCertificateFailed id message =>
    obtain ⟨there, own, fresh⟩ := h.pending id allowed
    exact h.write .failed (fun _ => rfl) (Or.inr allowed) there own fresh rfl rfl rfl rfl
  | setCertificateStatus id status =>
    obtain ⟨rfl, idle, value, read, rfl, free⟩ := allowed
    obtain ⟨there, fresh⟩ := h.read value read
    refine h.write status (fun _ => rfl) (Or.inl idle) there rfl (fresh free) ?_ ?_ ?_ ?_
    all_goals
      simp only [advance]
      cases underWay status <;> first | rfl | exact idle
  | updateCertificateSettings => exact allowed.elim
  | deleteCertificateWithAudit => exact allowed.elim
  | createJob run =>
    obtain ⟨idle, running⟩ := allowed
    simp only [SqliteStore.act] at answer ⊢
    split at answer
    · rename_i known
      cases answer
      rw [if_pos known]
      exact h.start idle running rfl rfl rfl rfl
    · cases answer
  | finishJob id status exitCode output errorMessage =>
    obtain ⟨own, ended⟩ := allowed
    exact h.finish (fun _ => ended) own rfl rfl rfl rfl
  | createAuditEvent event =>
    simp only [SqliteStore.act] at answer ⊢
    split at answer
    · rename_i known
      rw [if_pos known]
      exact h.congr rfl rfl rfl rfl (fun _ => rfl) (fun _ => rfl) rfl rfl
    · cases answer

/-- A call of the store that reports an error is remembered as one only. -/
theorem advance_error (b : Books) (q : Query) (err : Error) :
    advance b (.store q) (.error err) = b := by
  cases q <;> rfl

/-- Whatever is called, the books stay right. -/
theorem agrees_exec (s : Service) (env : Environment) (thread : Nat) (e : Eff) (w : World)
    (allowed : allows target b e) (h : Agrees target db₀ b w.db) :
    Honest e (ServiceWorld.exec env thread e w).1 ∧
      Agrees target db₀ (note s b e (ServiceWorld.exec env thread e w).1)
        (ServiceWorld.exec env thread e w).2.db := by
  refine ⟨exec_honest env thread e w, ?_⟩
  by_cases stored : ∃ q, e = .store q
  · obtain ⟨q, rfl⟩ := stored
    change Agrees target db₀ (note s b (.store q) (SqliteStore.exec env.backend q w.db).1)
      (SqliteStore.exec env.backend q w.db).2
    cases answered : (SqliteStore.exec env.backend q w.db).1 with
    | ok r => exact h.act s allowed answered
    | error err =>
      rw [exec_error answered]
      refine Agrees.noted ?_
      rw [advance_error]
      exact h
  · rw [ServiceSteps.exec_db fun q same => stored ⟨q, same⟩]
    have unheard : ∀ r : Ans e, (advance b e r).creating = b.creating ∧
        (advance b e r).read = b.read ∧ (advance b e r).pending = b.pending ∧
        (advance b e r).job = b.job := by
      intro r
      cases e with
      | store q => exact absurd ⟨q, rfl⟩ stored
      | issueSelfSigned certificate request =>
        rcases r with err | _ | result <;> exact ⟨rfl, rfl, rfl, rfl⟩
      | issueACME certificate request =>
        rcases r with err | _ | result <;> exact ⟨rfl, rfl, rfl, rfl⟩
      | _ => exact ⟨rfl, rfl, rfl, rfl⟩
    obtain ⟨creating, read, pending, job⟩ := unheard (ServiceWorld.exec env thread e w).1
    exact h.congr creating read pending job (fun _ => rfl) (fun _ => rfl) rfl rfl

end Calls

section Ends
variable (s : Service) (env : Environment) (thread : Nat)

/-- No call of the run goes wrong. -/
def Spared {α : Type} : Operation α → Books → World → Prop
  | .ret _, _, _ => True
  | .call e k, b, w =>
    harms s b e (exec env thread e w).1 = false ∧
      Spared (k (exec env thread e w).1) (note s b e (exec env thread e w).1)
        (exec env thread e w).2

/-- The books of a run tell whether its calls have gone wrong. -/
theorem harmed_run {α : Type} (p : Operation α) (b : Books) (w : World) :
    (run (noted (exec env thread) (note s)) p (b, w)).2.1.harmed = false ↔
      b.harmed = false ∧ Spared s env thread p b w := by
  induction p generalizing b w with
  | ret a => exact ⟨fun h => ⟨h, trivial⟩, fun h => h.1⟩
  | call e k ih =>
    refine (ih _ _ _).trans ?_
    simp only [note, Spared, Bool.or_eq_false_iff]
    exact and_assoc

theorem work_keeps (work : Work) :
    Keeps s work.target (programOf s work.request) .new fun _ => Squared := by
  cases work with
  | createSelfSigned request actor clientIP =>
    exact (createSelfSigned_keeps actor clientIP).bind fun _ _ squared => squared
  | createACME request actor clientIP =>
    exact (createACME_keeps actor clientIP).bind fun _ _ squared => squared
  | issue id actor clientIP =>
    exact (issue_keeps actor clientIP).bind fun _ _ ended => ended.2
  | renew id force actor clientIP =>
    exact (renew_keeps actor clientIP).bind fun _ _ ended => ended.2
  | revoke id actor clientIP =>
    exact (revoke_keeps actor clientIP).bind fun _ _ ended => ended.2

/-- What has not been taken back is there to be seen. -/
theorem tidy_iff {target : Option Id} {db₀ db : Db} {b : Books} (h : Agrees target db₀ b db) :
    Tidy target db₀ db ↔ ¬ Stuck db₀ (subject target db₀) ∧ b.clear := by
  constructor
  · intro tidy
    refine ⟨?_, ?_, ?_⟩
    · rintro ⟨row₀, there₀, busy⟩
      obtain ⟨row, there⟩ := h.kept _ row₀ there₀
      exact tidy.free ⟨row, there, (h.stuck _ row there).mpr (Or.inr ⟨row₀, there₀, busy⟩)⟩
    · cases pending : b.pending with
      | none => rfl
      | some id =>
        obtain ⟨⟨row, there⟩, rfl, -⟩ := h.pending id pending
        exact absurd ⟨row, there, (h.stuck _ row there).mpr (Or.inl pending)⟩ tidy.free
    · cases job : b.job with
      | none => rfl
      | some j =>
        obtain ⟨new, run, there⟩ := h.job j job
        exact absurd ((h.jobs j run new there).mpr job) (tidy.ended j run new there)
  · rintro ⟨free, pending, job⟩
    refine ⟨?_, fun j run new there running => ?_⟩
    · rintro ⟨row, there, busy⟩
      have cause := (h.stuck _ row there).mp busy
      rw [pending] at cause
      exact free (cause.resolve_left (fun h => nomatch h))
    · have mine := (h.jobs j run new there).mp running
      rw [job] at mine
      cases mine

/-- An operation leaves the certificate free and no job running exactly when
the certificate was free before and none of the calls that end the operation
has gone wrong. -/
theorem operation_tidy (work : Work) (w : World) :
    Tidy work.target w.db (run (exec env thread) (programOf s work.request) w).2.db ↔
      ¬ Stuck w.db (subject work.target w.db) ∧
        Spared s env thread (programOf s work.request) .new w := by
  obtain ⟨squared, right⟩ := (work_keeps s work).run_noted
    (I := fun b w' => Agrees work.target w.db b w'.db)
    (fun b e w' allowed h => agrees_exec s env thread e w' allowed h) (agrees_new work.target w.db)
  unfold Squared at squared
  rw [tidy_iff right, squared, harmed_run]
  exact and_congr_right fun _ => and_iff_right rfl

/-- The third call of the store fails: a renewal does not get its job. -/
def failingEnvironment : Environment :=
  { ServicePool.sampleEnvironment with
    backend := ⟨fun n => if n = 2 then some false else none, fun _ _ => 0⟩ }

/-- The certificate says `renewing` ever after. -/
theorem renewal_stuck :
    ¬ Tidy (some 0) ServicePool.sampleDb
      (run (exec failingEnvironment 0)
        (programOf ServicePool.sampleService (.renew 0 true "admin" "127.0.0.1"))
        ServicePool.sampleWorld).2.db := by
  intro tidy
  have left : ((run (exec failingEnvironment 0)
      (programOf ServicePool.sampleService (.renew 0 true "admin" "127.0.0.1"))
      ServicePool.sampleWorld).2.db.row 0).map Certificate.status = some .renewing := by decide
  obtain ⟨row, there, status⟩ := Option.map_eq_some_iff.mp left
  exact tidy.free ⟨row, there, by rw [status]; rfl⟩

end Ends

end OperationEnds
