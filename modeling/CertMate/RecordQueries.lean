import CertMate.RankedRows
import CertMate.SqliteStore
import CertMate.TimestampParse

/-!
# The lists of jobs and audit events

`Jobs` and `AuditEvents` of `internal/store/sqlite/store.go`, on the columns of
`job_runs` and `audit_events`. A `SELECT` compares, orders and cuts by the text of
the instant; rows with the same text come in any order.
-/
namespace RecordQueries
open CertificateModel Timestamps TimestampOrder TimestampParse RankedRows

/-- A row of `job_runs`; `certificate_id` may be `NULL`. -/
structure JobRow where
  id : Id
  certificateID : Option Id
  jobType : JobType
  status : JobStatus
  startedAt : String
  finishedAt : Option String
  exitCode : Option Int
  sanitizedOutput : Bytes
  errorMessage : Bytes
  attempt : Nat
  deriving DecidableEq, Repr

/-- A row of `audit_events`; the value of `detail_json` stands for its text. -/
structure AuditRow where
  id : Id
  certificateID : Option Id
  eventType : String
  actor : String
  clientIP : String
  result : String
  detail : List (String × Detail)
  createdAt : String
  deriving DecidableEq, Repr

def jobTypeText : JobType → String
  | .selfSignedIssue => "self_signed_issue"
  | .acmeIssue => "acme_issue"
  | .issue => "issue"
  | .renew => "renew"
  | .forceRenew => "force_renew"
  | .revoke => "revoke"

def jobStatusText : JobStatus → String
  | .pending => "pending"
  | .running => "running"
  | .succeeded => "succeeded"
  | .failed => "failed"
  | .interrupted => "interrupted"
  | .cancelled => "cancelled"

/-- What `CreateJob` and `FinishJob` write of a job. -/
def jobRow (run : Run) : JobRow where
  id := run.id
  certificateID := run.certificateID
  jobType := run.jobType
  status := run.status
  startedAt := rfc3339Nano run.startedAt
  finishedAt := run.finishedAt.map rfc3339Nano
  exitCode := run.exitCode
  sanitizedOutput := run.sanitizedOutput
  errorMessage := run.errorMessage
  attempt := run.attempt

/-- What `CreateAuditEvent` writes. -/
def auditRow (event : Event) : AuditRow where
  id := event.id
  certificateID := event.certificateID
  eventType := event.eventType
  actor := event.actor
  clientIP := event.clientIP
  result := event.result
  detail := event.detail
  createdAt := rfc3339Nano event.createdAt

def scanJob (row : JobRow) : Option Run := do
  let startedAt ← parse row.startedAt
  let finishedAt ← parseNull row.finishedAt
  some {
    id := row.id
    certificateID := row.certificateID
    jobType := row.jobType
    status := row.status
    startedAt := startedAt
    finishedAt := finishedAt
    exitCode := row.exitCode
    sanitizedOutput := row.sanitizedOutput
    errorMessage := row.errorMessage
    attempt := row.attempt }

def scanAuditEvent (row : AuditRow) : Option Event := do
  let createdAt ← parse row.createdAt
  some {
    id := row.id
    certificateID := row.certificateID
    eventType := row.eventType
    actor := row.actor
    clientIP := row.clientIP
    result := row.result
    detail := row.detail
    createdAt := createdAt }

/-- `jobs.Query`; no certificate stands for its empty text. -/
structure JobsQuery where
  certificateID : Option Id
  status : String
  jobType : String
  since : Option Time
  limit : Int
  deriving DecidableEq, Repr

/-- `audit.Query`. -/
structure AuditQuery where
  certificateID : Option Id
  eventType : String
  since : Option Time
  limit : Int
  deriving DecidableEq, Repr

def boundedLimit (limit : Int) : Nat := if limit < 1 ∨ 200 < limit then 100 else limit.toNat

/-- `started_at >= ?` and `created_at >= ?`, where there is a time to compare with. -/
def textSince (since : Option Time) (text : String) : Bool :=
  since.all fun s => rfc3339Nano s ≤ text

/-- The other conditions of `Jobs`. -/
def JobsQuery.selects (query : JobsQuery) (certificateID : Option Id) (status : JobStatus)
    (jobType : JobType) : Bool :=
  (query.certificateID.all fun id => certificateID = some id) &&
    (query.status = "" || jobStatusText status = query.status) &&
    (query.jobType = "" || jobTypeText jobType = query.jobType)

/-- The other conditions of `AuditEvents`. -/
def AuditQuery.selects (query : AuditQuery) (certificateID : Option Id) (eventType : String) :
    Bool :=
  (query.certificateID.all fun id => certificateID = some id) &&
    (query.eventType = "" || eventType = query.eventType)

/-- What `Jobs` may return; nothing if a row cannot be read. -/
def Jobs (rows : List JobRow) (query : JobsQuery) (out : Option (List Run)) : Prop :=
  ∃ found, First JobRow.startedAt (rows.filter fun row =>
      query.selects row.certificateID row.status row.jobType && textSince query.since row.startedAt)
    (boundedLimit query.limit) found ∧ out = found.mapM scanJob

/-- What `AuditEvents` may return. -/
def AuditEvents (rows : List AuditRow) (query : AuditQuery) (out : Option (List Event)) : Prop :=
  ∃ found, First AuditRow.createdAt (rows.filter fun row =>
      query.selects row.certificateID row.eventType && textSince query.since row.createdAt)
    (boundedLimit query.limit) found ∧ out = found.mapM scanAuditEvent

def due (since : Option Time) (t : Time) : Bool := since.all fun s => s ≤ t

/-- Newest first, and no more than the limit. -/
def RightJobs (runs : List Run) (query : JobsQuery) (out : Option (List Run)) : Prop :=
  ∃ l, out = some l ∧ First Run.startedAt ((runs.filter fun run =>
      query.selects run.certificateID run.status run.jobType).filter fun run =>
        due query.since run.startedAt) (boundedLimit query.limit) l

def RightEvents (events : List Event) (query : AuditQuery) (out : Option (List Event)) : Prop :=
  ∃ l, out = some l ∧ First Event.createdAt ((events.filter fun event =>
      query.selects event.certificateID event.eventType).filter fun event =>
        due query.since event.createdAt) (boundedLimit query.limit) l

/-- What is to be shown clashes with nothing; where not all of the places are taken,
nothing clashes with the time of the query. -/
structure Unclashing {ρ : Type} (instant : ρ → Time) (rows : List ρ) (since : Option Time)
    (n : Nat) : Prop where
  shown : ∀ r ∈ rows, due since (instant r) = true → rank instant rows r < n →
    (∀ s, since = some s → ¬ Clash s (instant r)) ∧ ∀ r' ∈ rows, ¬ Clash (instant r') (instant r)
  rest : rows.countP (fun r => due since (instant r)) < n →
    ∀ r ∈ rows, ∀ s, since = some s → ¬ Clash s (instant r)

section Lists
variable {ρ σ : Type} {instant : ρ → Time} {rows : List ρ} {since : Option Time} {n : Nat}

/-- A text is compared with the time of the query as its time is, unless they clash. -/
theorem textSince_iff {t : Time} (ht : Ordinary t) :
    (textSince since (rfc3339Nano t) = true ↔ due since t = true) ↔
      ∀ s, since = some s → ¬ Clash s t := by
  cases since with
  | none =>
    refine iff_of_true (iff_of_true rfl rfl) ?_
    intro s h
    cases h
  | some s =>
    have order := text_order ht s
    have texts : textSince (some s) (rfc3339Nano t) = true ↔ ¬ rfc3339Nano t < rfc3339Nano s := by
      rw [textSince, Option.all_some, decide_eq_true_iff, not_lt]
    have times : due (some s) t = true ↔ ¬ t < s := by
      rw [due, Option.all_some, decide_eq_true_iff, not_lt]
    have only : (∀ s', some s = some s' → ¬ Clash s' t) ↔ ¬ Clash s t :=
      ⟨fun h => h s rfl, fun h s' same => Option.some.inj same ▸ h⟩
    rw [texts, times, not_iff_not, only, ← order]
    exact iff_comm

theorem due_mono {t t' : Time} (wanted : due since t = true) (later : t ≤ t') :
    due since t' = true := by
  cases since with
  | none => rfl
  | some s =>
    rw [due, Option.all_some, decide_eq_true_iff] at wanted ⊢
    exact wanted.trans later

theorem textSince_mono {text text' : String} (yes : textSince since text = true)
    (later : text ≤ text') : textSince since text' = true := by
  cases since with
  | none => rfl
  | some s =>
    rw [textSince, Option.all_some, decide_eq_true_iff] at yes ⊢
    exact yes.trans later

/-- Two instants with the same text are the same. -/
theorem text_inj {t t' : Time} (ht : Ordinary t) (ht' : Ordinary t') :
    t = t' ↔ rfc3339Nano t = rfc3339Nano t' := by
  constructor
  · rintro rfl
    rfl
  · intro same
    have read := parse_rfc3339Nano ht
    rw [same, parse_rfc3339Nano ht'] at read
    exact (Option.some.inj read).symm

theorem agrees_iff (ordinary : ∀ r ∈ rows, Ordinary (instant r)) :
    Agrees instant (fun r => rfc3339Nano (instant r)) rows (fun r => due since (instant r))
      (fun r => textSince since (rfc3339Nano (instant r))) n ↔ Unclashing instant rows since n := by
  constructor
  · rintro ⟨shown, rest⟩
    refine ⟨fun r there wanted few => ?_, fun few r there => ?_⟩
    · obtain ⟨yes, orders⟩ := shown r there wanted few
      refine ⟨(textSince_iff (ordinary r there)).mp (iff_of_true yes wanted), fun r' there' => ?_⟩
      exact (text_order (ordinary r there) (instant r')).mp (orders r' there')
    · apply (textSince_iff (ordinary r there)).mp
      refine ⟨rest few r there, fun wanted => (shown r there wanted ?_).1⟩
      refine lt_of_le_of_lt ?_ few
      apply List.countP_mono_left
      intro x _ later
      exact due_mono wanted (of_decide_eq_true later).le
  · rintro ⟨shown, rest⟩
    refine ⟨fun r there wanted few => ?_, fun few r there yes => ?_⟩
    · obtain ⟨clear, orders⟩ := shown r there wanted few
      refine ⟨((textSince_iff (ordinary r there)).mpr clear).mpr wanted, fun r' there' => ?_⟩
      exact (text_order (ordinary r there) (instant r')).mpr (orders r' there')
    · exact ((textSince_iff (ordinary r there)).mpr (rest few r there)).mp yes

variable {write : ρ → σ} {scan : σ → Option ρ} {column : σ → String}

theorem mapM_write {l : List ρ} (readable : ∀ r ∈ l, scan (write r) = some r) :
    (l.map write).mapM scan = some l := by
  induction l with
  | nil => rfl
  | cons r l ih =>
    rw [List.map_cons, List.mapM_cons, readable r List.mem_cons_self,
      ih fun x there => readable x (List.mem_cons_of_mem r there)]
    rfl

/-- A list by the texts is the list by the times exactly if nothing clashes. -/
theorem list_iff (ordinary : ∀ r ∈ rows, Ordinary (instant r))
    (readable : ∀ r ∈ rows, scan (write r) = some r)
    (written : ∀ r, column (write r) = rfc3339Nano (instant r)) {found : List σ}
    (returned : First column ((rows.map write).filter fun x => textSince since (column x)) n
      found) :
    (∃ l, found.mapM scan = some l ∧
      First instant (rows.filter fun r => due since (instant r)) n l) ↔
      Unclashing instant rows since n := by
  have rule : ((rows.map write).filter fun x => textSince since (column x)) =
      (rows.filter fun r => textSince since (rfc3339Nano (instant r))).map write := by
    have tests : (fun x => textSince since (column x)) ∘ write =
        fun r => textSince since (rfc3339Nano (instant r)) := by
      funext r
      rw [Function.comp_apply, written]
    rw [List.filter_map, tests]
  rw [rule] at returned
  obtain ⟨l, rfl, inside, first⟩ := returned.of_map fun r there =>
    (readable r (List.mem_of_mem_filter there) : scan (write r) = some r)
  rw [mapM_write fun r there => readable r (List.mem_of_mem_filter (inside r there))]
  have texts : (fun r => column (write r)) = fun r => rfc3339Nano (instant r) := funext written
  rw [texts] at first
  rw [← agrees_iff ordinary, ← first_iff (fun a b => due_mono) (fun a b => textSince_mono)
    (fun a ha b hb => text_inj (ordinary a ha) (ordinary b hb)) first]
  constructor
  · rintro ⟨_, same, right⟩
    rwa [← Option.some.inj same] at right
  · intro right
    exact ⟨l, rfl, right⟩

end Lists

/-- The times of a job have ordinary years. -/
def Readable (run : Run) : Prop :=
  Ordinary run.startedAt ∧ ∀ t, run.finishedAt = some t → Ordinary t

theorem scanJob_jobRow {run : Run} (h : Readable run) : scanJob (jobRow run) = some run := by
  have finished := parseNull_map h.2
  rw [scanJob, jobRow]
  dsimp only
  rw [parse_rfc3339Nano h.1, finished]
  rfl

theorem scanAuditEvent_auditRow {event : Event} (h : Ordinary event.createdAt) :
    scanAuditEvent (auditRow event) = some event := by
  rw [scanAuditEvent, auditRow]
  dsimp only
  rw [parse_rfc3339Nano h]
  rfl

theorem filter_rows {ρ σ : Type} (write : ρ → σ) (rows : List ρ) (p q : σ → Bool) :
    (rows.map write).filter (fun x => p x && q x) =
      (((rows.filter fun r => p (write r)).map write).filter q) := by
  rw [List.filter_map, List.filter_map, List.filter_filter]
  have tests : (fun x => p x && q x) ∘ write = fun r => (q ∘ write) r && p (write r) := by
    funext r
    exact Bool.and_comm _ _
  rw [tests]

theorem jobs_iff {runs : List Run} (readable : ∀ run ∈ runs, Readable run) {query : JobsQuery}
    {out : Option (List Run)} (returned : Jobs (runs.map jobRow) query out) :
    RightJobs runs query out ↔ Unclashing Run.startedAt (runs.filter fun run =>
      query.selects run.certificateID run.status run.jobType) query.since
        (boundedLimit query.limit) := by
  obtain ⟨found, first, rfl⟩ := returned
  rw [filter_rows jobRow runs (fun row => query.selects row.certificateID row.status row.jobType)
    fun row => textSince query.since row.startedAt] at first
  exact list_iff (fun run there => (readable run (List.mem_of_mem_filter there)).1)
    (fun run there => scanJob_jobRow (readable run (List.mem_of_mem_filter there)))
    (fun _ => rfl) first

theorem auditEvents_iff {events : List Event} (ordinary : ∀ e ∈ events, Ordinary e.createdAt)
    {query : AuditQuery} {out : Option (List Event)}
    (returned : AuditEvents (events.map auditRow) query out) :
    RightEvents events query out ↔ Unclashing Event.createdAt (events.filter fun event =>
      query.selects event.certificateID event.eventType) query.since
        (boundedLimit query.limit) := by
  obtain ⟨found, first, rfl⟩ := returned
  rw [filter_rows auditRow events (fun row => query.selects row.certificateID row.eventType)
    fun row => textSince query.since row.createdAt] at first
  exact list_iff (fun event there => ordinary event (List.mem_of_mem_filter there))
    (fun event there => scanAuditEvent_auditRow (ordinary event (List.mem_of_mem_filter there)))
    (fun _ => rfl) first

/-- A list of jobs or of audit events is right exactly if nothing that is to be shown
clashes, and texts order as the instants unless two of them clash. -/
theorem queries_respect_time {runs : List Run} (readable : ∀ run ∈ runs, Readable run)
    {events : List Event} (ordinary : ∀ event ∈ events, Ordinary event.createdAt)
    (jobs : JobsQuery) (audits : AuditQuery) {listed : Option (List Run)}
    (fromJobs : Jobs (runs.map jobRow) jobs listed) {audited : Option (List Event)}
    (fromAudits : AuditEvents (events.map auditRow) audits audited) :
    (RightJobs runs jobs listed ↔ Unclashing Run.startedAt (runs.filter fun run =>
      jobs.selects run.certificateID run.status run.jobType) jobs.since
        (boundedLimit jobs.limit)) ∧
    (RightEvents events audits audited ↔ Unclashing Event.createdAt (events.filter fun event =>
      audits.selects event.certificateID event.eventType) audits.since
        (boundedLimit audits.limit)) ∧
    ∀ s t, Ordinary t → ((t < s ↔ rfc3339Nano t < rfc3339Nano s) ↔ ¬ Clash s t) := by
  refine ⟨?_, ?_, ?_⟩
  · exact jobs_iff readable fromJobs
  · exact auditEvents_iff ordinary fromAudits
  · intro s t ht
    exact text_order ht s

/-- The first of July 2026. -/
def july : Time := 1782864000 * 1000000000

def sampleRun (startedAt : Time) : Run where
  id := 0
  certificateID := some 0
  jobType := .renew
  status := .running
  startedAt := startedAt
  finishedAt := none
  exitCode := none
  sanitizedOutput := []
  errorMessage := []
  attempt := 1

def sampleEvent (createdAt : Time) : Event where
  id := 0
  certificateID := some 0
  eventType := "certificate.create"
  actor := "admin"
  clientIP := ""
  result := "success"
  detail := []
  createdAt := createdAt

def sinceJuly : JobsQuery where
  certificateID := none
  status := ""
  jobType := ""
  since := some july
  limit := 50

def eventsSinceJuly : AuditQuery where
  certificateID := none
  eventType := ""
  since := some july
  limit := 50

theorem sampleRun_readable {t : Time} (h : Ordinary t) : Readable (sampleRun t) :=
  ⟨h, fun _ finished => nomatch finished⟩

/-- Nothing clashes at all. -/
theorem unclashing_of_clear {ρ : Type} {instant : ρ → Time} {rows : List ρ} {s : Time} {n : Nat}
    (clear : ∀ r ∈ rows, ¬ Clash s (instant r) ∧ ∀ r' ∈ rows, ¬ Clash (instant r') (instant r)) :
    Unclashing instant rows (some s) n := by
  constructor
  · intro r there _ _
    obtain ⟨since, others⟩ := clear r there
    refine ⟨fun s' same => ?_, others⟩
    rwa [← Option.some.inj same]
  · intro _ r there s' same
    obtain ⟨since, -⟩ := clear r there
    rwa [← Option.some.inj same]

/-- A second before July, and three in July, not in their order. -/
def julyTimes : List Time :=
  [july - 1000000000, july + 1000000000, july + 3000000000, july + 2000000000]

theorem julyTimes_ordinary : ∀ t ∈ julyTimes, Ordinary t := by decide +kernel

theorem julyTimes_clear :
    ∀ t ∈ julyTimes, ¬ Clash july t ∧ ∀ t' ∈ julyTimes, ¬ Clash t' t := by
  decide +kernel

theorem twoJobs_found : Jobs ((julyTimes.map sampleRun).map jobRow) { sinceJuly with limit := 2 }
    (some [sampleRun (july + 3000000000), sampleRun (july + 2000000000)]) := by
  refine ⟨[sampleRun (july + 3000000000), sampleRun (july + 2000000000)].map jobRow, ?_,
    by decide +kernel⟩
  refine ⟨[sampleRun (july + 3000000000), sampleRun (july + 2000000000),
    sampleRun (july + 1000000000)].map jobRow, by decide +kernel, ?_, by decide⟩
  unfold Descending
  decide +kernel

theorem twoEvents_found :
    AuditEvents ((julyTimes.map sampleEvent).map auditRow) { eventsSinceJuly with limit := 2 }
      (some [sampleEvent (july + 3000000000), sampleEvent (july + 2000000000)]) := by
  refine ⟨[sampleEvent (july + 3000000000), sampleEvent (july + 2000000000)].map auditRow, ?_,
    by decide +kernel⟩
  refine ⟨[sampleEvent (july + 3000000000), sampleEvent (july + 2000000000),
    sampleEvent (july + 1000000000)].map auditRow, by decide +kernel, ?_, by decide⟩
  unfold Descending
  decide +kernel

/-- The two newest of the three rows in July. -/
theorem queries_respect_time_july :
    RightJobs (julyTimes.map sampleRun) { sinceJuly with limit := 2 }
      (some [sampleRun (july + 3000000000), sampleRun (july + 2000000000)]) ∧
    RightEvents (julyTimes.map sampleEvent) { eventsSinceJuly with limit := 2 }
      (some [sampleEvent (july + 3000000000), sampleEvent (july + 2000000000)]) ∧
    (july + 1000000000 < july ↔ rfc3339Nano (july + 1000000000) < rfc3339Nano july) := by
  have readable : ∀ run ∈ julyTimes.map sampleRun, Readable run := by
    intro run there
    obtain ⟨t, among, rfl⟩ := List.mem_map.mp there
    exact sampleRun_readable (julyTimes_ordinary t among)
  have ordinaries : ∀ event ∈ julyTimes.map sampleEvent, Ordinary event.createdAt := by
    intro event there
    obtain ⟨t, among, rfl⟩ := List.mem_map.mp there
    exact julyTimes_ordinary t among
  obtain ⟨jobs, events, texts⟩ := queries_respect_time readable ordinaries
    { sinceJuly with limit := 2 } { eventsSinceJuly with limit := 2 } twoJobs_found twoEvents_found
  refine ⟨jobs.mpr (unclashing_of_clear ?_), events.mpr (unclashing_of_clear ?_), ?_⟩
  · intro run there
    obtain ⟨t, among, rfl⟩ := List.mem_map.mp (List.mem_of_mem_filter there)
    refine ⟨(julyTimes_clear t among).1, fun run' there' => ?_⟩
    obtain ⟨t', among', rfl⟩ := List.mem_map.mp (List.mem_of_mem_filter there')
    exact (julyTimes_clear t among).2 t' among'
  · intro event there
    obtain ⟨t, among, rfl⟩ := List.mem_map.mp (List.mem_of_mem_filter there)
    refine ⟨(julyTimes_clear t among).1, fun event' there' => ?_⟩
    obtain ⟨t', among', rfl⟩ := List.mem_map.mp (List.mem_of_mem_filter there')
    exact (julyTimes_clear t among).2 t' among'
  · exact (texts _ _ (by decide +kernel)).mpr (by decide +kernel)

/-- A job started half a second into July is not found since July. -/
theorem queries_miss_fraction : ¬ ∀ runs : List Run, (∀ run ∈ runs, Readable run) →
    ∀ query out, Jobs (runs.map jobRow) query out → RightJobs runs query out := by
  intro claim
  have ordinary : Ordinary (july + 500000000) := by decide +kernel
  have none : (([sampleRun (july + 500000000)].map jobRow).filter fun row =>
      sinceJuly.selects row.certificateID row.status row.jobType &&
        textSince sinceJuly.since row.startedAt) = [] := by
    decide +kernel
  have returned : Jobs ([sampleRun (july + 500000000)].map jobRow) sinceJuly (some []) := by
    refine ⟨[], ?_, rfl⟩
    rw [none]
    exact ⟨[], List.Perm.refl _, List.Pairwise.nil, rfl⟩
  have readable : ∀ run ∈ [sampleRun (july + 500000000)], Readable run := by
    intro run there
    rw [List.mem_singleton.mp there]
    exact sampleRun_readable ordinary
  obtain ⟨l, same, p, perm, -, cut⟩ := claim _ readable _ _ returned
  have size : p.length = 1 := by
    rw [perm.length_eq]
    decide +kernel
  have limit : boundedLimit sinceJuly.limit = 50 := by decide
  have empty : l.length = 0 := by
    rw [← Option.some.inj same]
    rfl
  rw [cut, List.length_take, size, limit] at empty
  cases empty

end RecordQueries
