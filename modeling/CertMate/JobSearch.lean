import CertMate.RecordQueries
import CertMate.ServiceCalls
import CertMate.ServicePool

/-!
# Finding a job by its own attributes

`listJobs` of `internal/httpapi/records.go` takes the filters that are in its lists of
words. The service writes the type of a job with words of its own.
-/
namespace JobSearch
open CertificateModel CallTrees ThreadPools RankedRows RecordQueries TimestampParse TimestampOrder
  ServiceWorld CertificateService ServiceProtocol ServicePool ServiceCalls
open SqliteStore hiding exec
open DomainValidation (trimSpace)

def allowedJobStatuses : List String :=
  ["pending", "running", "succeeded", "failed", "interrupted", "cancelled"]

def allowedJobTypes : List String :=
  ["issue", "renew", "force_renew", "revoke", "self_signed_generate"]

/-- `strconv.Atoi`. -/
def atoi (raw : String) : Option Int :=
  let unsigned (digits : List Char) : Option Nat :=
    if digits ≠ [] ∧ digits.all isDigit then some (decimal digits) else none
  let value : Option Int :=
    match raw.toList with
    | '-' :: digits => (unsigned digits).map fun n => -(n : Int)
    | '+' :: digits => (unsigned digits).map fun n => (n : Int)
    | digits => (unsigned digits).map fun n => (n : Int)
  value.filter fun n => -(2 ^ 63) ≤ n && n < 2 ^ 63

def parseLimit (raw : String) : Int :=
  match atoi raw with
  | none => 100
  | some value => if value < 1 ∨ 200 < value then 100 else value

/-- No time for a blank text. -/
def parseSince (raw : String) : Option (Option Time) :=
  if trimSpace raw = "" then some none else (parse raw).map some

/-- The values of the URL; the identifier of a certificate has no space in its text. -/
structure JobFilters where
  certificateID : Option Id
  status : String
  jobType : String
  since : String
  limit : String

/-- The query, or the message of a 400 with the code `JOB_FILTER_INVALID`. -/
def listJobs (filters : JobFilters) : Except String JobsQuery :=
  let status := trimSpace filters.status
  let jobType := trimSpace filters.jobType
  if status ≠ "" ∧ status ∉ allowedJobStatuses then .error "任务状态筛选无效"
  else if jobType ≠ "" ∧ jobType ∉ allowedJobTypes then .error "任务类型筛选无效"
  else
    match parseSince filters.since with
    | none => .error "任务时间筛选无效"
    | some since =>
      .ok {
        certificateID := filters.certificateID
        status := status
        jobType := jobType
        since := since
        limit := parseLimit filters.limit }

/-- The certificate, the status and the type of a job. -/
def ownFilters (run : Run) (limit : String) : JobFilters where
  certificateID := run.certificateID
  status := jobStatusText run.status
  jobType := jobTypeText run.jobType
  since := ""
  limit := limit

/-- The endpoint takes the job's own attributes, and shows the job if no more jobs match
than it shows. -/
def Findable (runs : List Run) (run : Run) : Prop :=
  ∀ limit, ∃ query, listJobs (ownFilters run limit) = .ok query ∧
    ∀ out, Jobs (runs.map jobRow) query out →
      (runs.filter fun r => query.selects r.certificateID r.status r.jobType).length ≤
        boundedLimit query.limit →
      ∃ l, out = some l ∧ run ∈ l

/-- The types that `CreateACME` and `CreateSelfSigned` write. -/
def Creation (jobType : JobType) : Prop := jobType = .acmeIssue ∨ jobType = .selfSignedIssue

section Search
variable {runs : List Run} {run : Run}

theorem status_allowed (status : JobStatus) :
    trimSpace (jobStatusText status) = jobStatusText status ∧
      jobStatusText status ∈ allowedJobStatuses := by
  cases status <;> decide +kernel

theorem jobType_trimmed (jobType : JobType) :
    trimSpace (jobTypeText jobType) = jobTypeText jobType ∧ jobTypeText jobType ≠ "" := by
  cases jobType <;> decide +kernel

theorem jobType_allowed_iff (jobType : JobType) :
    jobTypeText jobType ∈ allowedJobTypes ↔ ¬ Creation jobType := by
  unfold Creation
  cases jobType <;> decide

theorem parseSince_blank : parseSince "" = some none := by decide +kernel

theorem listJobs_own (run : Run) (limit : String) :
    listJobs (ownFilters run limit) =
      if jobTypeText run.jobType ∉ allowedJobTypes then .error "任务类型筛选无效"
      else .ok ⟨run.certificateID, jobStatusText run.status, jobTypeText run.jobType, none,
        parseLimit limit⟩ := by
  obtain ⟨status, listed⟩ := status_allowed run.status
  obtain ⟨jobType, some_⟩ := jobType_trimmed run.jobType
  simp only [listJobs, ownFilters, status, jobType, listed, some_, parseSince_blank,
    not_true_eq_false, and_false, if_false, ne_eq, not_false_eq_true, true_and]

/-- All that matches is shown if it fits. -/
theorem jobs_all {query : JobsQuery} {out : Option (List Run)}
    (readable : ∀ r ∈ runs, Readable r) (always : query.since = none)
    (returned : Jobs (runs.map jobRow) query out)
    (fits : (runs.filter fun r => query.selects r.certificateID r.status r.jobType).length ≤
      boundedLimit query.limit) :
    ∃ l, out = some l ∧
      l.Perm (runs.filter fun r => query.selects r.certificateID r.status r.jobType) := by
  obtain ⟨found, first, rfl⟩ := returned
  have rows : (runs.map jobRow).filter (fun row => query.selects row.certificateID row.status
      row.jobType && textSince query.since row.startedAt) =
      (runs.filter fun r => query.selects r.certificateID r.status r.jobType).map jobRow := by
    rw [always, List.filter_map]
    congr 1
    apply List.filter_congr
    intro r _
    simp [textSince, jobRow]
  rw [rows] at first
  obtain ⟨l, rfl, inside, p, perm, -, rfl⟩ := first.of_map fun r there =>
    (scanJob_jobRow (readable r (List.mem_of_mem_filter there)) : scanJob (jobRow r) = some r)
  refine ⟨_, mapM_write fun r there => ?_, ?_⟩
  · exact scanJob_jobRow (readable r (List.mem_of_mem_filter (inside r there)))
  · rw [List.take_of_length_le (perm.length_eq.trans_le fits)]
    exact perm

/-- A job is found unless a creation wrote its type. -/
theorem findable_iff (readable : ∀ r ∈ runs, Readable r) (there : run ∈ runs) :
    Findable runs run ↔ ¬ Creation run.jobType := by
  rw [← jobType_allowed_iff]
  constructor
  · intro findable
    obtain ⟨query, accepted, -⟩ := findable ""
    rw [listJobs_own] at accepted
    by_contra other
    rw [if_pos other] at accepted
    cases accepted
  · intro allowed limit
    refine ⟨_, by rw [listJobs_own, if_neg (not_not.mpr allowed)], ?_⟩
    intro out returned fits
    obtain ⟨l, rfl, perm⟩ := jobs_all readable rfl returned fits
    refine ⟨l, rfl, perm.mem_iff.mpr (List.mem_filter.mpr ⟨there, ?_⟩)⟩
    cases run.certificateID <;> simp [JobsQuery.selects]

end Search

section Rows
variable {B : Backend} {q : Query} {db : Db} {run' : Run}

/-- A row keeps its type and its start; its end is written by the clock. -/
structure Continues (now : Time) (run run' : Run) : Prop where
  jobType : run'.jobType = run.jobType
  startedAt : run'.startedAt = run.startedAt
  finishedAt : run'.finishedAt = run.finishedAt ∨ run'.finishedAt = some now

theorem Continues.refl (now : Time) (run : Run) : Continues now run run := ⟨rfl, rfl, Or.inl rfl⟩

theorem Continues.readable {now : Time} {run run' : Run} (h : Continues now run run')
    (clock : Ordinary now) (readable : Readable run) : Readable run' := by
  constructor
  · rw [h.startedAt]
    exact readable.1
  · intro t ended
    rcases h.finishedAt with same | written
    · exact readable.2 t (same ▸ ended)
    · rw [written] at ended
      cases ended
      exact clock

/-- A row of after the call is one of before, or the call has created it. -/
theorem exec_runs (there : run' ∈ (SqliteStore.exec B q db).2.jobs.rows) :
    (∃ run ∈ db.jobs.rows, Continues (B.clock db.calls 0) run run') ∨
      ∃ run, q = .createJob run ∧ run' = newRun (B.clock db.calls) run db.jobs.next := by
  have same : run' ∈ db.jobs.rows → ∃ run ∈ db.jobs.rows, Continues (B.clock db.calls 0) run run' :=
    fun old => ⟨run', old, Continues.refl _ _⟩
  unfold SqliteStore.exec at there
  split at there
  · exact Or.inl (same there)
  change run' ∈ (act B q db).2.jobs.rows at there
  cases q with
  | createJob run =>
    simp only [act] at there
    split at there
    · rcases List.mem_append.mp there with old | new
      · exact Or.inl (same old)
      · exact Or.inr ⟨run, rfl, List.mem_singleton.mp new⟩
    · exact Or.inl (same there)
  | finishJob id status exit output message =>
    obtain ⟨run, old, rfl⟩ := List.mem_map.mp there
    refine Or.inl ⟨run, old, ?_⟩
    split
    · exact ⟨rfl, rfl, Or.inr rfl⟩
    · exact Continues.refl _ _
  | deleteCertificateWithAudit id event =>
    simp only [act] at there
    split at there
    · split at there
      · exact Or.inl (same there)
      · obtain ⟨run, old, rfl⟩ := List.mem_map.mp there
        exact Or.inl ⟨run, old, rfl, rfl, Or.inl rfl⟩
    · exact Or.inl (same there)
  | createCertificate value =>
    simp only [act] at there
    repeat' split at there
    all_goals exact Or.inl (same there)
  | updateCertificateSettings id name autoRenewEnabled renewBeforeDays createRenewedMarker =>
    simp only [act] at there
    repeat' split at there
    all_goals exact Or.inl (same there)
  | certificate id | createAuditEvent event =>
    simp only [act] at there
    split at there
    all_goals exact Or.inl (same there)
  | _ => exact Or.inl (same there)

theorem markInterruptedJobs_runs {now : Time}
    (there : run' ∈ (markInterruptedJobs now db).jobs.rows) :
    ∃ run ∈ db.jobs.rows, Continues now run run' := by
  obtain ⟨run, old, rfl⟩ := List.mem_map.mp there
  refine ⟨run, old, ?_⟩
  split
  · exact ⟨rfl, rfl, Or.inr rfl⟩
  · exact Continues.refl _ _

end Rows

theorem programOf_plain (s : Service) (request : Request) :
    Behaves (fun _ => True) (programOf s request) := by
  cases request with
  | list => exact only_bind list_plain fun _ => trivial
  | get id => exact only_bind (get_plain id) fun _ => trivial
  | readFile id fileName => exact only_bind (readFile_plain id fileName) fun _ => trivial
  | availableFiles id => exact only_bind (availableFiles_plain id) fun _ => trivial
  | update id request actor clientIP =>
    exact only_bind (update_plain id request actor clientIP) fun _ => trivial
  | createSelfSigned request actor clientIP =>
    exact only_bind (createSelfSigned_plain s request actor clientIP) fun _ => trivial
  | createACME request actor clientIP =>
    exact only_bind (createACME_plain s request actor clientIP) fun _ => trivial
  | issue id actor clientIP => exact only_bind (issue_plain s id actor clientIP) fun _ => trivial
  | renew id force actor clientIP =>
    exact only_bind (renew_plain s id (fun _ _ _ => trivial) actor clientIP) fun _ => trivial
  | revoke id actor clientIP =>
    exact only_bind (revoke_plain (fun _ _ => trivial) s id actor clientIP) fun _ => trivial
  | delete id deleteFiles actor clientIP =>
    exact delete_plain (fun _ _ => trivial) id deleteFiles actor clientIP
  | scan policy => exact runRenewalScan_plain policy
  | worker policy scan id =>
    exact only_bind (renewalWorker_plain s policy scan id) fun _ => trivial

/-- The call that creates the job of a creation. -/
def createsJob : Eff → Prop
  | .store (.createJob run) => Creation run.jobType
  | _ => False

section Runs
variable {env : Environment} {s : Service}
  {D : Discipline Eff Ans World Local (Outcome Unit)}

/-- Every job can be read, and without creations none has the type of one. -/
def searchable (D : Discipline Eff Ans World Local (Outcome Unit)) :
    Assertion Eff Ans World Local (Outcome Unit) where
  world w := ∀ run ∈ w.db.jobs.rows, Readable run ∧
    ((∀ c t e, D.call c t e → ¬ createsJob e) → ¬ Creation run.jobType)
  thread _ th _ := Behaves (fun _ => True) th.prog

theorem searchable_continues {now : Time} (clock : Ordinary now) {run run' : Run}
    (h : Continues now run run') {C : Prop}
    (known : Readable run ∧ (C → ¬ Creation run.jobType)) :
    Readable run' ∧ (C → ¬ Creation run'.jobType) := by
  rw [h.jobType]
  exact ⟨h.readable clock known.1, known.2⟩

theorem searchable_exec (clock : ∀ n k, Ordinary (env.backend.clock n k)) {t : Nat} {e : Eff}
    {w : World} {c : Configuration} (regular : Regular (fun _ => True) e) (ok : D.call c t e)
    (known : (searchable D).world w) : (searchable D).world (exec env t e w).2 := by
  intro run' there
  by_cases hq : ∃ q, e = .store q
  · obtain ⟨q, rfl⟩ := hq
    rcases exec_runs there with ⟨run, old, continues⟩ | ⟨run, rfl, rfl⟩
    · exact searchable_continues (clock _ _) continues (known run old)
    · obtain ⟨certificate, jobType, rfl⟩ := regular
      refine ⟨⟨clock _ _, ?_⟩, fun spared => spared _ _ _ ok⟩
      intro t ended
      cases ended
  · rw [ServiceSteps.exec_db fun q he => hq ⟨q, he⟩] at there
    exact known run' there

theorem searchable_stable (clock : ∀ n k, Ordinary (env.backend.clock n k))
    (restarted : ∀ n, Ordinary (env.clock n)) :
    (searchable D).Stable (pool env s) D fun _ => True where
  own c t e k l _ holds running _ ok := by
    obtain ⟨regular, later⟩ := holds.thread t _ running
    exact ⟨searchable_exec clock regular ok holds.world, later _ trivial⟩
  other _ _ _ _ _ u th _ holds _ _ _ _ there := holds.thread u th there
  start c t th _ _ _ starts _ := by
    obtain ⟨request, -, rfl⟩ := starts
    exact programOf_plain s request
  spawn c t e k l u child _ _ _ spawned _ _ := by
    obtain ⟨request, rfl⟩ := spawn_some spawned
    exact programOf_plain s request
  crash c _ holds _ := by
    intro run' there
    obtain ⟨run, old, continues⟩ := markInterruptedJobs_runs there
    exact searchable_continues (restarted _) continues (holds.world run old)

theorem searchable_reach (clock : ∀ n k, Ordinary (env.backend.clock n k))
    (restarted : ∀ n, Ordinary (env.clock n)) {c₀ c : Configuration} (started : Started c₀)
    (empty : c₀.world.db.jobs = .empty) (reach : Reach (pool env s) D c₀ c) :
    (searchable D).world c.world := by
  have begun : (searchable D).Holds c₀ := by
    apply started.holds
    intro run there
    rw [empty] at there
    cases there
  exact ((searchable_stable clock restarted).reach (fun _ _ _ _ => trivial) reach trivial
    begun).2.world

/-- Whatever the operations do, a job is found by its own attributes exactly if its type is
not that of a creation; in a run without creations every job is found. -/
theorem jobs_findable_iff (s : Service) (clock : ∀ n k, Ordinary (env.backend.clock n k))
    (restarted : ∀ n, Ordinary (env.clock n)) {c₀ c : Configuration} (started : Started c₀)
    (empty : c₀.world.db.jobs = .empty) (reach : Reach (pool env s) D c₀ c) :
    (∀ run ∈ c.world.db.jobs.rows,
      Findable c.world.db.jobs.rows run ↔ ¬ Creation run.jobType) ∧
    ((∀ c t e, D.call c t e → ¬ createsJob e) →
      ∀ run ∈ c.world.db.jobs.rows, Findable c.world.db.jobs.rows run) := by
  have known := searchable_reach clock restarted started empty reach
  have decided : ∀ run ∈ c.world.db.jobs.rows,
      Findable c.world.db.jobs.rows run ↔ ¬ Creation run.jobType :=
    fun run there => findable_iff (fun r old => (known r old).1) there
  refine ⟨decided, fun spared run there => ?_⟩
  exact (decided run there).mpr ((known run there).2 spared)

end Runs

def creation : Configuration :=
  requested emptyWorld [.createSelfSigned monthRequest "admin" ""]

theorem creation_reached : ∃ c : Configuration,
    Reach (pool sampleEnvironment sampleService) .any (requested emptyWorld []) c ∧
      ∃ run ∈ c.world.db.jobs.rows, run.jobType = .selfSignedIssue := by
  have played : (playing (fun _ _ _ => true) [0, 0] creation).map
      (fun c => c.world.db.jobs.rows.map Run.jobType) = some [.selfSignedIssue] := by
    decide +kernel
  obtain ⟨c, run, types⟩ := Option.map_eq_some_iff.mp played
  have begun : Reach (pool sampleEnvironment sampleService) .any (requested emptyWorld []) creation :=
    requested_reach sampleEnvironment (fun _ _ => trivial) emptyWorld _ (by decide)
  refine ⟨c, begun.trans (played_reach run), ?_⟩
  have there : JobType.selfSignedIssue ∈ c.world.db.jobs.rows.map Run.jobType := by
    rw [types]
    exact List.mem_singleton.mpr rfl
  exact List.mem_map.mp there

theorem jobs_findable_iff_creation : ∃ c : Configuration,
    Reach (pool sampleEnvironment sampleService) .any (requested emptyWorld []) c ∧
      ∃ run ∈ c.world.db.jobs.rows,
        Findable c.world.db.jobs.rows run ↔ ¬ Creation run.jobType := by
  obtain ⟨c, reach, run, there, -⟩ := creation_reached
  have epoch : Ordinary 0 := by decide
  have clock : ∀ n k, Ordinary (sampleEnvironment.backend.clock n k) := fun _ _ => epoch
  have restarted : ∀ n, Ordinary (sampleEnvironment.clock n) := fun _ => epoch
  have started : Started (requested emptyWorld []) := requested_started fun _ => rfl
  have found := (jobs_findable_iff sampleService clock restarted started rfl reach).1
  exact ⟨c, reach, run, there, found run there⟩

/-- The endpoint refuses the type of the job. -/
theorem creation_not_findable : ∃ c : Configuration,
    Reach (pool sampleEnvironment sampleService) .any (requested emptyWorld []) c ∧
      ∃ run ∈ c.world.db.jobs.rows, ¬ Findable c.world.db.jobs.rows run := by
  obtain ⟨c, reach, run, there, type⟩ := creation_reached
  refine ⟨c, reach, run, there, fun findable => ?_⟩
  obtain ⟨query, accepted, -⟩ := findable ""
  rw [listJobs_own, type, if_pos (by decide)] at accepted
  cases accepted

end JobSearch
