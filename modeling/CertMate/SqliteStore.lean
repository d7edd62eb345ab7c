import CertMate.KeyedTables
import CertMate.Timestamps

/-!
# The SQLite store

The tables of `migrations/00001_initial.sql` as far as certificates need them,
and the methods of `internal/store/sqlite/store.go` that the certificate
service calls. A statement that fails changes nothing.
-/
namespace SqliteStore
open CertificateModel KeyedTables Timestamps

/-- `output_directory` is `UNIQUE`; `calls` counts the calls of the store. -/
structure Db where
  certificates : Table Certificate Certificate.id
  jobs : Table Run Run.id
  audits : Table Event Event.id
  credentials : List String
  calls : Nat
  unique : (certificates.rows.map Certificate.outputDirectory).Nodup

/-- What an `UPDATE certificates` may do to a row. -/
structure Update where
  apply : Certificate → Certificate
  keepsId : ∀ c, (apply c).id = c.id
  keepsDirectory : ∀ c, (apply c).outputDirectory = c.outputDirectory

/-- `time.Time{}`. -/
def zeroTime : Time := -62135596800 * 1000000000

namespace Db

def row (db : Db) (id : Id) : Option Certificate := db.certificates.find? id

def job (db : Db) (id : Id) : Option Run := db.jobs.find? id

def tick (db : Db) : Db := { db with calls := db.calls + 1 }

def update (db : Db) (id : Id) (u : Update) : Db :=
  { db with
    certificates := db.certificates.modify id u.apply u.keepsId
    unique := by
      have same : (db.certificates.modify id u.apply u.keepsId).rows.map
          Certificate.outputDirectory = db.certificates.rows.map Certificate.outputDirectory := by
        rw [Table.modify, Table.mapRows, List.map_map]
        refine List.map_congr_left fun c _ => ?_
        rw [Function.comp_apply]
        split
        · exact u.keepsDirectory c
        · rfl
      rw [same]
      exact db.unique }

def updateJob (db : Db) (id : Id) (f : Run → Run) (keeps : ∀ r, (f r).id = r.id) : Db :=
  { db with jobs := db.jobs.modify id f keeps }

def insertCertificate (db : Db) (make : Id → Certificate) (numbered : ∀ n, (make n).id = n)
    (free : ∀ c ∈ db.certificates.rows,
      c.outputDirectory ≠ (make db.certificates.next).outputDirectory) : Db :=
  { db with
    certificates := db.certificates.insert make numbered
    unique := by
      rw [Table.insert, List.map_append, List.map_singleton]
      refine List.Nodup.append db.unique (List.nodup_singleton _) ?_
      intro directory hd hn
      obtain ⟨c, hc, rfl⟩ := List.mem_map.mp hd
      exact free c hc (List.mem_singleton.mp hn) }

def insertJob (db : Db) (run : Run) : Db :=
  { db with jobs := db.jobs.insert (fun id => { run with id := id }) fun _ => rfl }

def insertEvent (db : Db) (event : Event) : Db :=
  { db with audits := db.audits.insert (fun id => { event with id := id }) fun _ => rfl }

/-- `ON DELETE SET NULL` for a job of the certificate `id`. -/
def unlinkRun (id : Id) (r : Run) : Run :=
  { r with certificateID := if r.certificateID = some id then none else r.certificateID }

def unlinkEvent (id : Id) (e : Event) : Event :=
  { e with certificateID := if e.certificateID = some id then none else e.certificateID }

/-- `DELETE FROM certificates`. -/
def deleteCertificate (db : Db) (id : Id) : Db :=
  { db with
    certificates := db.certificates.erase id
    jobs := db.jobs.mapRows (unlinkRun id) fun _ => rfl
    audits := db.audits.mapRows (unlinkEvent id) fun _ => rfl
    unique := db.unique.sublist (List.filter_sublist.map Certificate.outputDirectory) }

section Lookup
variable (db : Db) (id j : Id)

@[simp] theorem row_tick : db.tick.row j = db.row j := rfl

@[simp] theorem job_tick : db.tick.job j = db.job j := rfl

theorem row_update (u : Update) :
    (db.update id u).row j = if j = id then (db.row j).map u.apply else db.row j :=
  Table.find?_modify id u.apply u.keepsId j

@[simp] theorem job_update (u : Update) : (db.update id u).job j = db.job j := rfl

@[simp] theorem row_updateJob (f : Run → Run) (keeps : ∀ r, (f r).id = r.id) :
    (db.updateJob id f keeps).row j = db.row j := rfl

theorem job_updateJob (f : Run → Run) (keeps : ∀ r, (f r).id = r.id) :
    (db.updateJob id f keeps).job j = if j = id then (db.job j).map f else db.job j :=
  Table.find?_modify id f keeps j

theorem row_insertCertificate (make : Id → Certificate) (numbered : ∀ n, (make n).id = n)
    (free : ∀ c ∈ db.certificates.rows,
      c.outputDirectory ≠ (make db.certificates.next).outputDirectory) :
    (db.insertCertificate make numbered free).row j =
      if j = db.certificates.next then some (make db.certificates.next) else db.row j :=
  Table.find?_insert make numbered j

@[simp] theorem job_insertCertificate (make : Id → Certificate) (numbered : ∀ n, (make n).id = n)
    (free : ∀ c ∈ db.certificates.rows,
      c.outputDirectory ≠ (make db.certificates.next).outputDirectory) :
    (db.insertCertificate make numbered free).job j = db.job j := rfl

@[simp] theorem row_insertJob (run : Run) : (db.insertJob run).row j = db.row j := rfl

theorem job_insertJob (run : Run) :
    (db.insertJob run).job j =
      if j = db.jobs.next then some { run with id := db.jobs.next } else db.job j :=
  Table.find?_insert _ _ j

@[simp] theorem row_insertEvent (event : Event) : (db.insertEvent event).row j = db.row j := rfl

@[simp] theorem job_insertEvent (event : Event) : (db.insertEvent event).job j = db.job j := rfl

theorem row_deleteCertificate :
    (db.deleteCertificate id).row j = if j = id then none else db.row j :=
  Table.find?_erase id j

end Lookup

/-- Two certificates never share an output directory. -/
theorem same_directory {db : Db} {i j : Id} {c d : Certificate} (hc : db.row i = some c)
    (hd : db.row j = some d) (h : c.outputDirectory = d.outputDirectory) : i = j := by
  obtain ⟨memC, rfl⟩ := Table.find?_eq_some_iff.mp hc
  obtain ⟨memD, rfl⟩ := Table.find?_eq_some_iff.mp hd
  rw [List.inj_on_of_nodup_map db.unique memC memD h]

theorem lt_next_of_row {db : Db} {i : Id} {c : Certificate} (h : db.row i = some c) :
    i < db.certificates.next := Table.lt_next_of_find? h

theorem id_of_row {db : Db} {i : Id} {c : Certificate} (h : db.row i = some c) : c.id = i :=
  Table.key_of_find? h

end Db

inductive Query where
  | createCertificate (value : Certificate)
  | certificate (id : Id)
  | certificates
  | markCertificateIssued (value : Certificate)
  | markCertificateRenewed (value : Certificate)
  | markCertificateFailed (id : Id) (message : Bytes)
  | setCertificateStatus (id : Id) (status : Status)
  | updateCertificateSettings (id : Id) (name : String) (autoRenewEnabled : Bool)
      (renewBeforeDays : Int) (createRenewedMarker : Bool)
  | deleteCertificateWithAudit (id : Id) (event : Event)
  | createJob (run : Run)
  | finishJob (id : Id) (status : JobStatus) (exitCode : Int) (output errorMessage : Bytes)
  | createAuditEvent (event : Event)
  deriving DecidableEq, Repr

/-- Inserts answer what they have completed in the caller's value. -/
abbrev Reply : Query → Type
  | .createCertificate _ => Certificate
  | .certificate _ => Certificate
  | .certificates => List Certificate
  | .createJob _ => Run
  | _ => Unit

/-- `fails n` says that the `n`-th call fails, and whether that is because its
context is cancelled; `clock n k` is its `k`-th reading of the clock. -/
structure Backend where
  fails : Nat → Option Bool
  clock : Nat → Nat → Time

section Statements
variable (now : Nat → Time)

def markCertificateIssued (value : Certificate) : Update where
  apply c := { c with
    status := .active
    issuer := value.issuer
    serialNumber := value.serialNumber
    notBefore := value.notBefore
    notAfter := value.notAfter
    fingerprintSHA256 := value.fingerprintSHA256
    updatedAt := now 0
    lastIssuedAt := some (now 1)
    lastError := [] }
  keepsId _ := rfl
  keepsDirectory _ := rfl

def markCertificateRenewed (value : Certificate) : Update where
  apply c := { c with
    status := .active
    issuer := value.issuer
    serialNumber := value.serialNumber
    notBefore := value.notBefore
    notAfter := value.notAfter
    fingerprintSHA256 := value.fingerprintSHA256
    updatedAt := now 0
    lastRenewedAt := some (now 0)
    lastError := [] }
  keepsId _ := rfl
  keepsDirectory _ := rfl

def markCertificateFailed (message : Bytes) : Update where
  apply c := { c with status := .failed, lastError := message, updatedAt := now 0 }
  keepsId _ := rfl
  keepsDirectory _ := rfl

def setCertificateStatus (status : Status) : Update where
  apply c := { c with status := status, updatedAt := now 0 }
  keepsId _ := rfl
  keepsDirectory _ := rfl

def updateCertificateSettings (name : String) (autoRenewEnabled : Bool) (renewBeforeDays : Int)
    (createRenewedMarker : Bool) : Update where
  apply c := { c with
    name := name
    autoRenewEnabled := autoRenewEnabled
    renewBeforeDays := renewBeforeDays
    createRenewedMarker := createRenewedMarker
    updatedAt := now 0 }
  keepsId _ := rfl
  keepsDirectory _ := rfl

/-- The row that `CreateCertificate` inserts: columns it does not name keep
their defaults. -/
def newRow (value : Certificate) (id : Id) : Certificate :=
  let createdAt := if value.createdAt = zeroTime then now 0 else value.createdAt
  { value with
    id := id
    createdAt := createdAt
    updatedAt := createdAt
    issuer := ""
    serialNumber := ""
    notBefore := none
    notAfter := none
    fingerprintSHA256 := ""
    lastIssuedAt := none
    lastRenewedAt := none
    lastError := [] }

theorem newRow_id (value : Certificate) (id : Id) : (newRow now value id).id = id := rfl

theorem newRow_outputDirectory (value : Certificate) (id : Id) :
    (newRow now value id).outputDirectory = value.outputDirectory := rfl

/-- The caller's value after `CreateCertificate`. -/
def createdValue (value : Certificate) (id : Id) : Certificate :=
  let createdAt := if value.createdAt = zeroTime then now 0 else value.createdAt
  { value with id := id, createdAt := createdAt, updatedAt := createdAt }

def newRun (run : Run) (id : Id) : Run :=
  { run with
    id := id
    startedAt := if run.startedAt = zeroTime then now 0 else run.startedAt
    attempt := if run.attempt = 0 then 1 else run.attempt }

def newEvent (event : Event) : Event :=
  { event with createdAt := if event.createdAt = zeroTime then now 0 else event.createdAt }

def finishRun (status : JobStatus) (exitCode : Int) (output errorMessage : Bytes) (run : Run) :
    Run :=
  { run with
    status := status
    finishedAt := some (now 0)
    exitCode := some exitCode
    sanitizedOutput := output
    errorMessage := errorMessage }

end Statements

/-- The constraint of the `certificates` table that a new row breaks. -/
def violation (db : Db) (value : Certificate) : Option String :=
  match value.mode with
  | .other _ => some "CHECK constraint failed: mode IN ('acme', 'self_signed')"
  | _ =>
    if value.renewBeforeDays < 1 ∨ 365 < value.renewBeforeDays then
      some "CHECK constraint failed: renew_before_days BETWEEN 1 AND 365"
    else if value.dnsCredentialID ≠ "" ∧ value.dnsCredentialID ∉ db.credentials then
      some "FOREIGN KEY constraint failed"
    else none

/-- The foreign key on certificates; an empty identifier is stored as `NULL`. -/
def referenced (db : Db) : Option Id → Bool
  | none => true
  | some id => (db.row id).isSome

/-- `ORDER BY not_after IS NULL, not_after ASC, created_at DESC`, on the texts. -/
def listedBefore (a b : Certificate) : Bool :=
  match a.notAfter, b.notAfter with
  | some _, none => true
  | none, some _ => false
  | none, none => rfc3339Nano b.createdAt ≤ rfc3339Nano a.createdAt
  | some s, some t =>
    if rfc3339Nano s = rfc3339Nano t then rfc3339Nano b.createdAt ≤ rfc3339Nano a.createdAt
    else rfc3339Nano s < rfc3339Nano t

def constraintError (context text : String) : Error := .wrap context (.database text false)

/-- A call that goes through. -/
def act (B : Backend) : (q : Query) → Db → Except Error (Reply q) × Db
  | .createCertificate value, db =>
    let now := B.clock db.calls
    match violation db value with
    | some text => (.error (constraintError "创建证书记录" text), db)
    | none =>
      if free : ∀ c ∈ db.certificates.rows, c.outputDirectory ≠ value.outputDirectory then
        (.ok (createdValue now value db.certificates.next),
          db.insertCertificate (newRow now value) (newRow_id now value) (by
            rw [newRow_outputDirectory]
            exact free))
      else
        (.error (constraintError "创建证书记录"
          "UNIQUE constraint failed: certificates.output_directory"), db)
  | .certificate id, db =>
    match db.row id with
    | none => (.error .notFound, db)
    | some c => (.ok c, db)
  | .certificates, db => (.ok (db.certificates.rows.insertionSort (listedBefore · ·)), db)
  | .markCertificateIssued value, db =>
    (.ok (), db.update value.id (markCertificateIssued (B.clock db.calls) value))
  | .markCertificateRenewed value, db =>
    (.ok (), db.update value.id (markCertificateRenewed (B.clock db.calls) value))
  | .markCertificateFailed id message, db =>
    (.ok (), db.update id (markCertificateFailed (B.clock db.calls) message))
  | .setCertificateStatus id status, db =>
    (.ok (), db.update id (setCertificateStatus (B.clock db.calls) status))
  | .updateCertificateSettings id name autoRenewEnabled renewBeforeDays createRenewedMarker, db =>
    match db.row id with
    | none => (.error .notFound, db)
    | some _ =>
      if renewBeforeDays < 1 ∨ 365 < renewBeforeDays then
        (.error (constraintError "更新证书设置"
          "CHECK constraint failed: renew_before_days BETWEEN 1 AND 365"), db)
      else
        (.ok (), db.update id (updateCertificateSettings (B.clock db.calls) name autoRenewEnabled
          renewBeforeDays createRenewedMarker))
  -- One transaction, which `DeleteTransaction.transaction_calm` shows to be its calls.
  | .deleteCertificateWithAudit id event, db =>
    if referenced db event.certificateID then
      match db.row id with
      | none => (.error .notFound, db)
      | some _ => (.ok (), (db.insertEvent (newEvent (B.clock db.calls) event)).deleteCertificate id)
    else (.error (constraintError "创建删除审计记录" "FOREIGN KEY constraint failed"), db)
  | .createJob run, db =>
    if referenced db run.certificateID then
      let run := newRun (B.clock db.calls) run db.jobs.next
      (.ok run, db.insertJob run)
    else (.error (constraintError "创建任务记录" "FOREIGN KEY constraint failed"), db)
  | .finishJob id status exitCode output errorMessage, db =>
    (.ok (), db.updateJob id (finishRun (B.clock db.calls) status exitCode output errorMessage)
      fun _ => rfl)
  | .createAuditEvent event, db =>
    if referenced db event.certificateID then
      (.ok (), db.insertEvent (newEvent (B.clock db.calls) event))
    else (.error (constraintError "创建审计记录" "FOREIGN KEY constraint failed"), db)

def databaseError (canceled : Bool) : Error :=
  .database (if canceled then "context canceled" else "database is locked") canceled

/-- How each method reports that the database has failed. -/
def failure (q : Query) (canceled : Bool) : Error :=
  match q with
  | .createCertificate _ => .wrap "创建证书记录" (databaseError canceled)
  | .certificates => .wrap "查询证书列表" (databaseError canceled)
  | .markCertificateIssued _ => .wrap "更新证书签发状态" (databaseError canceled)
  | .markCertificateRenewed _ => .wrap "更新证书续签状态" (databaseError canceled)
  | .updateCertificateSettings _ _ _ _ _ => .wrap "更新证书设置" (databaseError canceled)
  | .deleteCertificateWithAudit _ _ => .wrap "开始删除证书事务" (databaseError canceled)
  | .createJob _ => .wrap "创建任务记录" (databaseError canceled)
  | .finishJob _ _ _ _ _ => .wrap "完成任务记录" (databaseError canceled)
  | .createAuditEvent _ => .wrap "创建审计记录" (databaseError canceled)
  | _ => databaseError canceled

def exec (B : Backend) (q : Query) (db : Db) : Except Error (Reply q) × Db :=
  match B.fails db.calls with
  | some canceled => (.error (failure q canceled), db.tick)
  | none => ((act B q db).1, (act B q db).2.tick)

/-- The row a statement rewrites, and how. -/
def Query.change (now : Nat → Time) : Query → Option (Id × Update)
  | .markCertificateIssued value => some (value.id, SqliteStore.markCertificateIssued now value)
  | .markCertificateRenewed value => some (value.id, SqliteStore.markCertificateRenewed now value)
  | .markCertificateFailed id message => some (id, SqliteStore.markCertificateFailed now message)
  | .setCertificateStatus id status => some (id, SqliteStore.setCertificateStatus now status)
  | .updateCertificateSettings id name autoRenewEnabled renewBeforeDays createRenewedMarker =>
    some (id, SqliteStore.updateCertificateSettings now name autoRenewEnabled renewBeforeDays
      createRenewedMarker)
  | _ => none

/-- The status a statement writes, and to which row. -/
def Query.setsStatus : Query → Option (Id × Status)
  | .markCertificateIssued value | .markCertificateRenewed value => some (value.id, .active)
  | .markCertificateFailed id _ => some (id, .failed)
  | .setCertificateStatus id status => some (id, status)
  | _ => none

section Effects
variable {B : Backend} {q : Query} {db : Db}

theorem exec_through (h : B.fails db.calls = none) :
    exec B q db = ((act B q db).1, (act B q db).2.tick) := by
  simp [exec, h]

@[simp] theorem exec_calls : (exec B q db).2.calls = db.calls + 1 := by
  unfold exec
  split
  · rfl
  · cases q <;> simp only [act] <;> repeat' first | split | rfl

theorem act_error {err : Error} : (act B q db).1 = .error err → (act B q db).2 = db := by
  cases q <;> simp only [act] <;> repeat' first | split | (intro h; first | rfl | cases h)

/-- A call that reports an error has changed nothing. -/
theorem exec_error {err : Error} (h : (exec B q db).1 = .error err) :
    (exec B q db).2 = db.tick := by
  unfold exec at h ⊢
  split at h
  · rfl
  · exact congrArg Db.tick (act_error h)

theorem exec_ok {v : Reply q} (h : (exec B q db).1 = .ok v) :
    (act B q db).1 = .ok v ∧ (exec B q db).2 = (act B q db).2.tick := by
  unfold exec at h ⊢
  split at h
  · cases h
  · exact ⟨h, rfl⟩

/-- What a call may do to the row of a certificate. -/
inductive RowStep (B : Backend) (q : Query) (db db' : Db) (id : Id) : Prop where
  | same (row : db'.row id = db.row id)
  | changed (u : Update) (change : q.change (B.clock db.calls) = some (id, u))
      (row : db'.row id = (db.row id).map u.apply)
  | created (value : Certificate) (query : q = .createCertificate value)
      (new : id = db.certificates.next)
      (row : db'.row id = some (newRow (B.clock db.calls) value id))
  | deleted (event : Event) (query : q = .deleteCertificateWithAudit id event)
      (present : ∃ c, db.row id = some c) (row : db'.row id = none)

theorem act_row (B : Backend) (q : Query) (db : Db) (id : Id) :
    RowStep B q db (act B q db).2 id := by
  have updated : ∀ key u, q.change (B.clock db.calls) = some (key, u) →
      RowStep B q db (db.update key u) id := by
    intro key u change
    by_cases he : id = key
    · subst key
      exact .changed u change (by rw [Db.row_update, if_pos rfl])
    · exact .same (by rw [Db.row_update, if_neg he])
  cases q with
  | createCertificate value =>
    simp only [act]
    split
    · exact .same rfl
    split
    · by_cases he : id = db.certificates.next
      · exact .created value rfl he (by rw [Db.row_insertCertificate, if_pos he, he])
      · exact .same (by rw [Db.row_insertCertificate, if_neg he])
    · exact .same rfl
  | markCertificateIssued value => exact updated _ _ rfl
  | markCertificateRenewed value => exact updated _ _ rfl
  | markCertificateFailed key message => exact updated _ _ rfl
  | setCertificateStatus key status => exact updated _ _ rfl
  | updateCertificateSettings key name autoRenewEnabled renewBeforeDays createRenewedMarker =>
    simp only [act]
    split
    · exact .same rfl
    split
    · exact .same rfl
    · exact updated _ _ rfl
  | deleteCertificateWithAudit key event =>
    simp only [act]
    split
    · split
      · exact .same rfl
      · rename_i c found
        by_cases he : id = key
        · subst key
          exact .deleted event rfl ⟨c, found⟩ (by rw [Db.row_deleteCertificate, if_pos rfl])
        · refine .same ?_
          rw [Db.row_deleteCertificate, if_neg he]
          rfl
    · exact .same rfl
  | certificate key => simp only [act]; split <;> exact .same rfl
  | certificates => exact .same rfl
  | createJob run => simp only [act]; split <;> exact .same rfl
  | finishJob key status exitCode output errorMessage => exact .same rfl
  | createAuditEvent event => simp only [act]; split <;> exact .same rfl

theorem exec_row (B : Backend) (q : Query) (db : Db) (id : Id) :
    RowStep B q db (exec B q db).2 id := by
  unfold exec
  split
  · exact .same rfl
  · cases act_row B q db id with
    | same row => exact .same row
    | changed u change row => exact .changed u change row
    | created value query new row => exact .created value query new row
    | deleted event query present row => exact .deleted event query present row

/-- No `UPDATE` names a column of the terms. -/
theorem change_terms {now : Nat → Time} {id : Id} {u : Update}
    (h : q.change now = some (id, u)) (c : Certificate) :
    (u.apply c).terms = c.terms := by
  cases q <;> cases h <;> rfl

theorem exec_terms {id : Id} {c' : Certificate} (h : (exec B q db).2.row id = some c') :
    (∃ c, db.row id = some c ∧ c'.terms = c.terms) ∨ id = db.certificates.next := by
  cases exec_row B q db id with
  | same row => exact Or.inl ⟨c', row ▸ h, rfl⟩
  | changed u change row =>
    rw [row] at h
    obtain ⟨c, there, rfl⟩ := Option.map_eq_some_iff.mp h
    exact Or.inl ⟨c, there, change_terms change c⟩
  | created value query new row => exact Or.inr new
  | deleted event query present row =>
    rw [row] at h
    cases h

/-- Numbers are only ever given out. -/
theorem act_next (B : Backend) (q : Query) (db : Db) :
    db.certificates.next ≤ (act B q db).2.certificates.next := by
  cases q <;> simp only [act] <;> repeat' first | split | exact Nat.le_refl _
  exact Nat.le_succ _

theorem exec_next (B : Backend) (q : Query) (db : Db) :
    db.certificates.next ≤ (exec B q db).2.certificates.next := by
  unfold exec
  split
  · exact Nat.le_refl _
  · exact act_next B q db

/-- A directory belongs to a row from the insert on. -/
theorem exec_row_directory {id : Id} {c' : Certificate} (h : (exec B q db).2.row id = some c') :
    (∃ c, db.row id = some c ∧ c'.outputDirectory = c.outputDirectory) ∨
      ∃ value, q = .createCertificate value ∧ c'.outputDirectory = value.outputDirectory := by
  cases exec_row B q db id with
  | same row => exact Or.inl ⟨c', row ▸ h, rfl⟩
  | changed u change row =>
    rw [row] at h
    obtain ⟨c, hc, rfl⟩ := Option.map_eq_some_iff.mp h
    exact Or.inl ⟨c, hc, u.keepsDirectory c⟩
  | created value query new row =>
    rw [row] at h
    cases h
    exact Or.inr ⟨value, query, rfl⟩
  | deleted event query present row =>
    rw [row] at h
    cases h

/-- The row of a number that was given out is never seen again once it is gone,
and keeps its directory as long as it is there. -/
theorem exec_row_old {id : Id} (old : id < db.certificates.next) {c' : Certificate}
    (h : (exec B q db).2.row id = some c') :
    ∃ c, db.row id = some c ∧ c'.outputDirectory = c.outputDirectory := by
  cases exec_row B q db id with
  | same row => exact ⟨c', row ▸ h, rfl⟩
  | changed u change row =>
    rw [row] at h
    obtain ⟨c, hc, rfl⟩ := Option.map_eq_some_iff.mp h
    exact ⟨c, hc, u.keepsDirectory c⟩
  | created value query new row => exact absurd new (Nat.ne_of_lt old)
  | deleted event query present row =>
    rw [row] at h
    cases h

/-- Only a delete takes a row away. -/
theorem exec_row_kept {id : Id} {c : Certificate} (h : db.row id = some c)
    (kept : ∀ event, q ≠ .deleteCertificateWithAudit id event) :
    ∃ c', (exec B q db).2.row id = some c' ∧ c'.outputDirectory = c.outputDirectory := by
  cases exec_row B q db id with
  | same row => exact ⟨c, row.trans h, rfl⟩
  | changed u change row =>
    rw [h] at row
    exact ⟨u.apply c, row, u.keepsDirectory c⟩
  | created value query new row => exact absurd new (Nat.ne_of_lt (Db.lt_next_of_row h))
  | deleted event query present row => exact absurd query (kept event)

/-- A status changes only by a statement that sets it. -/
theorem exec_status {id : Id} (old : id < db.certificates.next) {c' : Certificate}
    (h : (exec B q db).2.row id = some c') :
    ∃ c, db.row id = some c ∧ (c'.status = c.status ∨ q.setsStatus = some (id, c'.status)) := by
  cases exec_row B q db id with
  | same row => exact ⟨c', row ▸ h, Or.inl rfl⟩
  | changed u change row =>
    rw [row] at h
    obtain ⟨c, hc, rfl⟩ := Option.map_eq_some_iff.mp h
    refine ⟨c, hc, ?_⟩
    cases q <;> cases change <;> first | exact Or.inl rfl | exact Or.inr rfl
  | created value query new row => exact absurd new (Nat.ne_of_lt old)
  | deleted event query present row =>
    rw [row] at h
    cases h

theorem certificate_ok {id : Id} {c : Certificate} (h : (exec B (.certificate id) db).1 = .ok c) :
    db.row id = some c := by
  have h := (exec_ok h).1
  simp only [act] at h
  split at h
  · cases h
  · rename_i found
    cases h
    exact found

theorem createCertificate_ok {value c : Certificate}
    (h : (exec B (.createCertificate value) db).1 = .ok c) :
    c = createdValue (B.clock db.calls) value db.certificates.next ∧
      (exec B (.createCertificate value) db).2.row db.certificates.next =
        some (newRow (B.clock db.calls) value db.certificates.next) ∧
      (exec B (.createCertificate value) db).2.certificates.next = db.certificates.next + 1 ∧
      ∀ c ∈ db.certificates.rows, c.outputDirectory ≠ value.outputDirectory := by
  obtain ⟨h, state⟩ := exec_ok h
  rw [state]
  simp only [act] at h ⊢
  split at h
  · cases h
  · rename_i valid
    split at h
    · rename_i free
      refine ⟨(Except.ok.inj h).symm, ?_⟩
      simp only [dif_pos free]
      exact ⟨by rw [Db.row_tick, Db.row_insertCertificate, if_pos rfl], rfl, free⟩
    · cases h

/-- A status that is set without an error is there afterwards. -/
theorem setCertificateStatus_ok {id : Id} {status : Status} {v : Unit}
    (h : (exec B (.setCertificateStatus id status) db).1 = .ok v) {c' : Certificate}
    (there : (exec B (.setCertificateStatus id status) db).2.row id = some c') :
    c'.status = status := by
  rw [(exec_ok h).2] at there
  simp only [act, Db.row_tick, Db.row_update, if_true] at there
  obtain ⟨c, -, rfl⟩ := Option.map_eq_some_iff.mp there
  rfl

theorem createJob_ok {run job : Run} {id : Id} (about : run.certificateID = some id)
    (h : (exec B (.createJob run) db).1 = .ok job) : ∃ c, db.row id = some c := by
  have h := (exec_ok h).1
  simp only [act, about, referenced] at h
  split at h
  · rename_i present
    exact Option.isSome_iff_exists.mp present
  · cases h

theorem delete_ok {id : Id} {event : Event} {v : Unit}
    (h : (exec B (.deleteCertificateWithAudit id event) db).1 = .ok v) :
    (∃ c, db.row id = some c) ∧
    (exec B (.deleteCertificateWithAudit id event) db).2.row id = none := by
  obtain ⟨h, state⟩ := exec_ok h
  rw [state]
  simp only [act] at h ⊢
  split at h
  · rename_i known
    split at h
    · cases h
    · rename_i c found
      rw [if_pos known]
      simp only [found]
      exact ⟨⟨c, rfl⟩, by rw [Db.row_tick, Db.row_deleteCertificate, if_pos rfl]⟩
  · cases h

end Effects

/-- `MarkInterruptedJobs`, at start-up. -/
def markInterruptedJobs (now : Time) (db : Db) : Db :=
  { db with
    jobs := db.jobs.mapRows (fun r =>
      if r.status = .running then
        { r with
          status := .interrupted
          finishedAt := some now
          errorMessage := if r.errorMessage = [] then utf8 "应用重启导致任务中断" else r.errorMessage }
      else r) fun r => by split <;> rfl }

end SqliteStore
