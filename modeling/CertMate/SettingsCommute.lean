import CertMate.LifeCyclePace
import CertMate.ServicePool

/-!
# Settings and life cycle

`Service.Update` takes no lock and runs beside everything else. A run with updates is held
against one of the same issues, renewals and revocations without them, each of whose calls is
made in the surroundings it was made in before: on the same disk, behind the same locks, with
the same engines, and as the same call of the database.
-/
namespace SettingsCommute
open CertificateModel CallTrees ThreadPools ServiceWorld CertificateFiles CertificateService
  ServiceProtocol ServicePool PacedRuns LifeCyclePace
open DomainValidation (trimSpace)
open SqliteStore hiding exec

attribute [local irreducible] trimSpace

/-- The settings that a request asks for. -/
def requestedSettings (request : UpdateRequest) : Settings :=
  ⟨trimSpace request.name, request.autoRenewEnabled, request.renewBeforeDays,
    request.createRenewedMarker⟩

def atCall (db : Db) (n : Nat) : Db := { db with calls := n }

section Database

/-- Whether the row of a certificate asks for the marker file. -/
def asksFor (db : Db) (id : Id) : Bool := (db.row id).any (·.createRenewedMarker)

/-- The database of the second run, where no settings have been changed, beside
that of the first. -/
structure Beside (asks : Id → Bool) (db d : Db) : Prop where
  rows : ∀ id, (d.row id).map lifeCycle = (db.row id).map lifeCycle
  jobs : d.jobs = db.jobs
  asked : ∀ id row, d.row id = some row → row.createRenewedMarker = asks id

variable {asks : Id → Bool} {db d : Db}

/-- The row of a certificate in both databases. -/
theorem Beside.row (h : Beside asks db d) (id : Id) :
    db.row id = none ∧ d.row id = none ∨
      ∃ c settings updatedAt, c.id = id ∧ settings.createRenewedMarker = asks id ∧
        db.row id = some c ∧ d.row id = some (restyle c settings updatedAt) := by
  have rows := h.rows id
  cases there : db.row id with
  | none =>
    rw [there] at rows
    exact Or.inl ⟨rfl, Option.map_eq_none_iff.mp rows⟩
  | some c =>
    rw [there] at rows
    obtain ⟨c', there', same⟩ := Option.map_eq_some_iff.mp rows
    obtain ⟨settings, updatedAt, rfl⟩ := restyle_of_lifeCycle same
    exact Or.inr ⟨c, settings, updatedAt, Db.id_of_row there, h.asked id _ there', rfl, there'⟩

theorem Beside.referenced (h : Beside asks db d) (key : Option Id) :
    referenced d key = referenced db key := by
  cases key with
  | none => rfl
  | some id =>
    change (d.row id).isSome = (db.row id).isSome
    rcases h.row id with ⟨gone, gone'⟩ | ⟨c, settings, updatedAt, -, -, there, there'⟩
    · rw [gone, gone']
    · rw [there, there']
      rfl

/-- An update that names no settings keeps the agreement. -/
theorem Beside.update (h : Beside asks db d) (id : Id) {u : Update}
    (blind : ∀ c, lifeCycle (u.apply c) = lifeCycle (u.apply (lifeCycle c)))
    (spares : ∀ c, (u.apply c).createRenewedMarker = c.createRenewedMarker) :
    Beside asks (db.update id u) (d.update id u) := by
  refine ⟨fun j => ?_, h.jobs, fun j row there => ?_⟩
  · rw [Db.row_update, Db.row_update]
    split
    · have rows := congrArg (Option.map fun c => lifeCycle (u.apply c)) (h.rows j)
      rw [Option.map_map, Option.map_map] at rows
      rw [Option.map_map, Option.map_map]
      have through : (lifeCycle ∘ u.apply) = (fun c => lifeCycle (u.apply c)) ∘ lifeCycle :=
        funext blind
      rw [through]
      exact rows
    · exact h.rows j
  · rw [Db.row_update] at there
    split at there
    · obtain ⟨before, found, rfl⟩ := Option.map_eq_some_iff.mp there
      exact (spares before).trans (h.asked j before found)
    · exact h.asked j row there

theorem Beside.atCall (h : Beside asks db d) (n : Nat) : Beside asks db (atCall d n) :=
  ⟨h.rows, h.jobs, h.asked⟩

/-- A statement of `Service.Update` changes nothing that is compared. -/
theorem Beside.settings (h : Beside asks db d) (id : Id) {u : Update}
    (settles : ∀ c, lifeCycle (u.apply c) = lifeCycle c) : Beside asks (db.update id u) d := by
  refine ⟨fun j => ?_, h.jobs, h.asked⟩
  rw [Db.row_update]
  split
  · rw [Option.map_map, h.rows j]
    exact congrArg (fun f => Option.map f (db.row j)) (funext fun c => (settles c).symm)
  · exact h.rows j

variable {B : Backend} (calls : d.calls = db.calls)
include calls

/-- What a statement answers and does, when it answers and does the same on both sides. -/
theorem exec_beside (h : Beside asks db d) {q : Query}
    (acts : (act B q d).1 = (act B q db).1 ∧ Beside asks (act B q db).2 (act B q d).2) :
    (SqliteStore.exec B q d).1 = (SqliteStore.exec B q db).1 ∧
      Beside asks (SqliteStore.exec B q db).2 (SqliteStore.exec B q d).2 := by
  unfold SqliteStore.exec
  rw [calls]
  split
  · exact ⟨rfl, h.rows, h.jobs, h.asked⟩
  · exact ⟨acts.1, acts.2.rows, acts.2.jobs, acts.2.asked⟩

theorem act_plain (h : Beside asks db d) {q : Query} (plain : Plain (.store q)) :
    (act B q d).1 = (act B q db).1 ∧ Beside asks (act B q db).2 (act B q d).2 := by
  cases q with
  | markCertificateFailed id message =>
    simp only [act, calls]
    exact ⟨trivial, h.update id (fun _ => rfl) fun _ => rfl⟩
  | setCertificateStatus id status =>
    simp only [act, calls]
    exact ⟨trivial, h.update id (fun _ => rfl) fun _ => rfl⟩
  | createJob run =>
    simp only [act, h.referenced, calls, h.jobs]
    split
    · have jobs : ∀ run, (d.insertJob run).jobs = (db.insertJob run).jobs := by
        intro run
        simp only [Db.insertJob, h.jobs]
      exact ⟨rfl, h.rows, jobs _, h.asked⟩
    · exact ⟨rfl, h⟩
  | finishJob id status exitCode output errorMessage =>
    have jobs : ∀ f keeps, (d.updateJob id f keeps).jobs = (db.updateJob id f keeps).jobs := by
      intro f keeps
      simp only [Db.updateJob, h.jobs]
    simp only [act, calls]
    exact ⟨trivial, h.rows, jobs _ _, h.asked⟩
  | createAuditEvent event =>
    simp only [act, h.referenced, calls]
    split
    · exact ⟨rfl, h.rows, h.jobs, h.asked⟩
    · exact ⟨rfl, h⟩
  | certificate | certificates | createCertificate | markCertificateIssued
  | markCertificateRenewed | updateCertificateSettings | deleteCertificateWithAudit =>
    exact plain.elim

theorem plain_beside (h : Beside asks db d) {q : Query} (plain : Plain (.store q)) :
    Told asks (.store q) (.store q) (SqliteStore.exec B q db).1 (SqliteStore.exec B q d).1 ∧
      Beside asks (SqliteStore.exec B q db).2 (SqliteStore.exec B q d).2 := by
  obtain ⟨same, after⟩ := exec_beside calls h (act_plain calls h plain)
  refine ⟨?_, after⟩
  rw [same]
  exact .plain plain _

theorem issued_beside (h : Beside asks db d) (c : Certificate) (settings : Settings)
    (updatedAt : Time) :
    Told asks (.store (.markCertificateIssued c))
        (.store (.markCertificateIssued (restyle c settings updatedAt)))
        (SqliteStore.exec B (.markCertificateIssued c) db).1
        (SqliteStore.exec B (.markCertificateIssued (restyle c settings updatedAt)) d).1 ∧
      Beside asks (SqliteStore.exec B (.markCertificateIssued c) db).2
        (SqliteStore.exec B (.markCertificateIssued (restyle c settings updatedAt)) d).2 := by
  have acts : (act B (.markCertificateIssued c) d).1 = (act B (.markCertificateIssued c) db).1 ∧
      Beside asks (act B (.markCertificateIssued c) db).2
        (act B (.markCertificateIssued c) d).2 := by
    simp only [act, calls]
    exact ⟨trivial, h.update c.id (fun _ => rfl) fun _ => rfl⟩
  obtain ⟨same, after⟩ := exec_beside calls h acts
  refine ⟨?_, after⟩
  have restyled : (SqliteStore.exec B
      (.markCertificateIssued (restyle c settings updatedAt)) d).1 =
      (SqliteStore.exec B (.markCertificateIssued c) db).1 := same
  rw [restyled]
  exact .issued _

theorem renewed_beside (h : Beside asks db d) (c : Certificate) (settings : Settings)
    (updatedAt : Time) :
    Told asks (.store (.markCertificateRenewed c))
        (.store (.markCertificateRenewed (restyle c settings updatedAt)))
        (SqliteStore.exec B (.markCertificateRenewed c) db).1
        (SqliteStore.exec B (.markCertificateRenewed (restyle c settings updatedAt)) d).1 ∧
      Beside asks (SqliteStore.exec B (.markCertificateRenewed c) db).2
        (SqliteStore.exec B (.markCertificateRenewed (restyle c settings updatedAt)) d).2 := by
  have acts : (act B (.markCertificateRenewed c) d).1 = (act B (.markCertificateRenewed c) db).1 ∧
      Beside asks (act B (.markCertificateRenewed c) db).2
        (act B (.markCertificateRenewed c) d).2 := by
    simp only [act, calls]
    exact ⟨trivial, h.update c.id (fun _ => rfl) fun _ => rfl⟩
  obtain ⟨same, after⟩ := exec_beside calls h acts
  refine ⟨?_, after⟩
  have restyled : (SqliteStore.exec B
      (.markCertificateRenewed (restyle c settings updatedAt)) d).1 =
      (SqliteStore.exec B (.markCertificateRenewed c) db).1 := same
  rw [restyled]
  exact .renewed _

theorem read_beside (h : Beside asks db d) (id : Id) :
    Told asks (.store (.certificate id)) (.store (.certificate id))
        (SqliteStore.exec B (.certificate id) db).1 (SqliteStore.exec B (.certificate id) d).1 ∧
      Beside asks (SqliteStore.exec B (.certificate id) db).2
        (SqliteStore.exec B (.certificate id) d).2 := by
  unfold SqliteStore.exec
  rw [calls]
  split
  · exact ⟨.missing id _, h.rows, h.jobs, h.asked⟩
  · rcases h.row id with ⟨gone, gone'⟩ | ⟨c, settings, updatedAt, rfl, asked, there, there'⟩
    · simp only [act, gone, gone']
      exact ⟨.missing id _, h.rows, h.jobs, h.asked⟩
    · simp only [act, there, there']
      exact ⟨.row c settings updatedAt asked, h.rows, h.jobs, h.asked⟩

end Database

section Requests

/-- A request of the claim. -/
inductive Asked where
  | update (id : Id) (request : UpdateRequest) (actor clientIP : String)
  | issue (id : Id) (actor clientIP : String)
  | renew (id : Id) (force : Bool) (actor clientIP : String)
  | revoke (id : Id) (actor clientIP : String)
  deriving DecidableEq, Repr

def Asked.request : Asked → Request
  | .update id request actor clientIP => .update id request actor clientIP
  | .issue id actor clientIP => .issue id actor clientIP
  | .renew id force actor clientIP => .renew id force actor clientIP
  | .revoke id actor clientIP => .revoke id actor clientIP

def Asked.updates : Asked → Bool
  | .update _ _ _ _ => true
  | _ => false

def updating (asked : Nat → Option Asked) (t : Nat) : Bool := (asked t).any Asked.updates

/-- What one request for an update asks of the service: the statement is the request's. -/
def OfUpdate (id : Id) (request : UpdateRequest) : Eff → Prop
  | .store (.certificate _) | .store (.createAuditEvent _) => True
  | .store (.updateCertificateSettings key name autoRenewEnabled renewBeforeDays
      createRenewedMarker) =>
    key = id ∧ ⟨name, autoRenewEnabled, renewBeforeDays, createRenewedMarker⟩ =
      requestedSettings request
  | _ => False

theorem update_calls (s : Service) (id : Id) (request : UpdateRequest) (actor clientIP : String) :
    Only (fun _ _ => True) (OfUpdate id request)
      (programOf s (.update id request actor clientIP)) := by
  refine only_bind ?_ fun _ => trivial
  unfold update
  dsimp only
  split
  · exact trivial
  split
  · exact trivial
  refine only_call.mpr ⟨trivial, fun found _ => ?_⟩
  cases found with
  | error err => exact trivial
  | ok _ =>
    refine only_call.mpr ⟨⟨rfl, rfl⟩, fun updated _ => ?_⟩
    cases updated with
    | error err => exact trivial
    | ok _ => exact ⟨trivial, fun _ _ => ⟨trivial, fun _ _ => trivial⟩⟩

theorem update_beside {asks : Id → Bool} {env : Environment} {t : Nat} {e : Eff} {w : World}
    {d : Db} (h : Beside asks w.db d) {id : Id} {request : UpdateRequest}
    (ofUpdate : OfUpdate id request e) : Beside asks (exec env t e w).2.db d := by
  cases e with
  | store q =>
    change Beside asks (SqliteStore.exec env.backend q w.db).2 d
    unfold SqliteStore.exec
    split
    · exact ⟨h.rows, h.jobs, h.asked⟩
    · suffices acts : Beside asks (act env.backend q w.db).2 d from
        ⟨acts.rows, acts.jobs, acts.asked⟩
      cases q with
      | certificate id =>
        simp only [act]
        split <;> exact h
      | createAuditEvent event =>
        simp only [act]
        split
        · exact ⟨h.rows, h.jobs, h.asked⟩
        · exact h
      | updateCertificateSettings id name autoRenewEnabled renewBeforeDays createRenewedMarker =>
        simp only [act]
        split
        · exact h
        split
        · exact h
        · exact h.settings id fun _ => rfl
      | _ => exact ofUpdate.elim
  | _ => exact ofUpdate.elim

end Requests

section Runs

/-- What surrounds a call of the second run: an environment, and the world without its
database. -/
abbrev Around := Environment × World

def around (w : World) (db : Db) : World := { w with db := atCall db w.db.calls }

/-- The service of the second run, which has nothing but the database for its own. -/
def apart : Surroundings Eff Ans Around Db where
  exec t e o db := ((exec o.1 t e (around o.2 db)).1, (exec o.1 t e (around o.2 db)).2.db)
  restart o db := (ServicePool.restart o.1 (around o.2 db)).db

/-- A call without the settings in it. -/
def bare : Eff → Eff
  | .store (.markCertificateIssued c) => .store (.markCertificateIssued (lifeCycle c))
  | .store (.markCertificateRenewed c) => .store (.markCertificateRenewed (lifeCycle c))
  | .file certificate (.op (.writeFile path name (.document document) mode)) =>
    .file certificate (.op (.writeFile path name (.document { document with name := "" }) mode))
  | e => e

def aside : Eff → Bool
  | .file _ f => marking f
  | _ => false

/-- What is compared of the calls of both runs: those of the life-cycle operations, with what
surrounds them, but for the marker file and the publisher's clock. -/
def compared (asked : Nat → Option Asked) (t : Nat) (e : Eff) (o : Around) :
    Option (Nat × Eff × Around) :=
  if updating asked t || aside e then none else some (t, bare e, o)

def tie (env : Environment) (asked : Nat → Option Asked) (asks : Id → Bool) :
    Tie Eff Around World Db (Nat × Eff × Around) where
  absent t := updating asked t = true
  theirs e := ∃ id request, OfUpdate id request e
  outside w := (env, w)
  worlds w d := Beside asks w.db d
  seen := compared asked

/-- Every interleaving of the requests, and a kill at any point, where no marker file fails to be
written that the certificate did not ask for before. -/
def keepingMarkers (env : Environment) (db : Db) :
    Discipline Eff Ans World Local (Outcome Unit) where
  start _ _ := False
  call c _ e := ∀ certificate f, e = .file certificate f → marking f = true →
    asksFor db certificate = false → Written f (FileSystem.exec env.host f c.world.fs).1
  crash _ := True

theorem exec_around {env : Environment} {t : Nat} {e : Eff} (silent : ∀ q, e ≠ .store q)
    (calm : OperationCalls.Apart e) (w : World) (db : Db) :
    (exec env t e (around w db)).1 = (exec env t e w).1 := by
  cases e with
  | store q => exact absurd rfl (silent q)
  | loadOrStore certificate =>
    simp only [exec, around]
    split <;> rfl
  | tryLock lock =>
    simp only [exec, around]
    split <;> rfl
  | acquireSlot scan => exact calm.elim
  | _ => rfl

variable {asks : Id → Bool} {env : Environment}

/-- What a call outside the database does, it does to neither. -/
theorem beside_around {t : Nat} {e e' : Eff} (silent : ∀ q, e ≠ .store q)
    (silent' : ∀ q, e' ≠ .store q) {w : World} {d : Db} (h : Beside asks w.db d) :
    Beside asks (exec env t e w).2.db (exec env t e' (around w d)).2.db := by
  have left : (exec env t e w).2.db = w.db := ServiceSteps.exec_db silent
  have right : (exec env t e' (around w d)).2.db = atCall d w.db.calls :=
    ServiceSteps.exec_db silent'
  rw [left, right]
  exact h.atCall _

/-- The answer to a write does not depend on what is written. -/
theorem write_answer (H : FileSystem.Host) (path : FileSystem.Path) (name : String)
    (content content' : FileSystem.Content) (mode : FileSystem.FileMode) (fs : FileSystem.Fs) :
    (FileSystem.exec H (.op (.writeFile path name content' mode)) fs).1 =
      (FileSystem.exec H (.op (.writeFile path name content mode)) fs).1 := by
  simp only [FileSystem.exec]
  split
  · rfl
  · simp only [FileSystem.act]
    split <;> rfl

theorem alike_exec {t : Nat} {e e' : Eff} {w : World} {d : Db} (alike : Alike e e')
    (h : Beside asks w.db d) :
    Told asks e e' (exec env t e w).1 (exec env t e' (around w d)).1 ∧
      Beside asks (exec env t e w).2.db (exec env t e' (around w d)).2.db := by
  have h' : Beside asks w.db (atCall d w.db.calls) := h.atCall _
  have calls : (atCall d w.db.calls).calls = w.db.calls := rfl
  cases alike with
  | @plain e plain =>
    have outer : (∀ q, e ≠ .store q) → OperationCalls.Apart e →
        Told asks e e (exec env t e w).1 (exec env t e (around w d)).1 ∧
          Beside asks (exec env t e w).2.db (exec env t e (around w d)).2.db := by
      intro silent calm
      rw [exec_around silent calm]
      exact ⟨.plain plain _, beside_around silent silent h⟩
    cases e with
    | store q => exact plain_beside calls h' plain
    | file certificate f => exact plain.elim
    | _ => exact outer (fun q => Eff.noConfusion) plain
  | read id => exact read_beside calls h' id
  | @file certificate f f' alike =>
    have honest : PublishProtocol.Honest f (exec env t (.file certificate f) w).1 :=
      PublishProtocol.exec_honest env.host f w.fs
    refine ⟨.file ?_ honest, beside_around (fun q => Eff.noConfusion) (fun q => Eff.noConfusion) h⟩
    have answers : ∀ g, (exec env t (.file certificate g) (around w d)).1 =
        (exec env t (.file certificate g) w).1 := fun _ => rfl
    rw [answers]
    cases alike with
    | same => exact HEq.rfl
    | metadata path document name mode => exact heq_of_eq (write_answer _ _ _ _ _ _ _)
  | issued c settings updatedAt => exact issued_beside calls h' c settings updatedAt
  | renewed c settings updatedAt => exact renewed_beside calls h' c settings updatedAt

theorem alike_compared {asked : Nat → Option Asked} {t : Nat} {e e' : Eff} (alike : Alike e e')
    (o : Around) : compared asked t e o = compared asked t e' o := by
  have same : aside e = aside e' ∧ bare e = bare e' := by
    cases alike with
    | file certificate alike => cases alike <;> exact ⟨rfl, rfl⟩
    | _ => exact ⟨rfl, rfl⟩
  rw [compared, compared, same.1, same.2]

theorem aside_unseen {asked : Nat → Option Asked} {t : Nat} {e : Eff} (h : aside e = true)
    (o : Around) : compared asked t e o = none := by
  simp [compared, h]

/-- Surroundings in which a marker file is written, at that time. -/
def granting (time : Time) : Around :=
  ({ sampleEnvironment with host := { FileSystem.calmHost with clock := fun _ => time } },
    { sampleWorld with fs := ⟨some .dir, true, fun _ => some (.dir ⟨0, []⟩), 0, 0, []⟩ })

theorem granted (t : Nat) (certificate : Id) {f : FileSystem.Call} {r : FileSystem.Answer f}
    (marks : marking f = true) (written : Written f r) (d : Db) :
    ∃ o, (apart.exec t (.file certificate f) o d).1 = r := by
  cases f with
  | now => exact ⟨granting r, rfl⟩
  | range values => cases marks
  | op value =>
    cases value with
    | writeFile path name content mode =>
      have ok : r = .ok () := written
      subst ok
      exact ⟨granting 0, rfl⟩
    | _ => cases marks

theorem spawn_none {s : Service} {t : Nat} {e : Eff} (calm : OperationCalls.Apart e) :
    (pool env s).spawn t e = none := by
  cases e with
  | startWorker => exact calm.elim
  | _ => rfl

theorem alike_apart {e e' : Eff} (alike : Alike e e') : OperationCalls.Apart e := by
  cases alike with
  | plain plain =>
    cases e with
    | store => trivial
    | file => trivial
    | _ => exact plain
  | _ => trivial

theorem tie_kept (env : Environment) (s : Service) (asked : Nat → Option Asked) (db : Db) :
    (tie env asked (asksFor db)).Kept (pace (asksFor db)) (pool env s) (keepingMarkers env db)
      apart where
  both t e e' w w' _ alike worlds := by
    have step : Told _ e e' (exec env t e w).1 (exec env t e' (around w w')).1 ∧
        Beside _ (exec env t e w).2.db (exec env t e' (around w w')).2.db := alike_exec alike worlds
    exact ⟨step.1, step.2, alike_compared alike _⟩
  left c t e w' _ alone ok worlds := by
    obtain ⟨certificate, f, rfl, unasked, marks⟩ := alone
    have same : (exec env t (.file certificate f) c.world).2.db = c.world.db :=
      ServiceSteps.exec_db fun q => Eff.noConfusion
    have hidden : aside (.file certificate f) = true := marks
    refine ⟨ok certificate f rfl marks unasked, ?_, aside_unseen hidden _⟩
    change Beside _ (exec env t (.file certificate f) c.world).2.db w'
    rw [same]
    exact worlds
  right t e r w w' alone worlds := by
    cases e with
    | file certificate f =>
      obtain ⟨o, answer⟩ := granted t certificate alone.1 alone.2 w'
      have same : (apart.exec t (.file certificate f) o w').2 = atCall w' o.2.db.calls :=
        ServiceSteps.exec_db fun q => Eff.noConfusion
      have hidden : aside (.file certificate f) = true := alone.1
      refine ⟨o, answer, ?_, aside_unseen hidden _⟩
      rw [same]
      exact Beside.atCall worlds _
    | _ => exact alone.elim
  absent t e w w' absent theirs worlds := by
    obtain ⟨id, request, ofUpdate⟩ := theirs
    have updates : updating asked t = true := absent
    exact ⟨update_beside worlds ofUpdate, by simp [tie, compared, updates]⟩
  restart w w' worlds := by
    have jobs : (apart.restart (env, w) w').jobs = ((pool env s).restart w).db.jobs := by
      have same : w'.jobs = w.db.jobs := worlds.jobs
      change (markInterruptedJobs (env.clock w.ticks) (atCall w' w.db.calls)).jobs =
        (markInterruptedJobs (env.clock w.ticks) w.db).jobs
      simp only [markInterruptedJobs, atCall, same]
    exact ⟨worlds.rows, jobs, worlds.asked⟩
  closed _ _ starts := starts
  alone t e known := by
    rcases known with ⟨id, request, ofUpdate⟩ | ⟨certificate, f, rfl, -⟩ | ⟨e', alike⟩
    · cases e with
      | store => rfl
      | _ => exact ofUpdate.elim
    · rfl
    · exact spawn_none (alike_apart alike)

end Runs

section Settling
variable {env : Environment} {s : Service} {asked : Nat → Option Asked}

/-- The update that a call commits: the request is that of the thread. -/
def committed (env : Environment) (asked : Nat → Option Asked) :
    Nat × Eff × World → Option (Id × UpdateRequest)
  | (t, .store (.updateCertificateSettings id name autoRenewEnabled renewBeforeDays
      createRenewedMarker), w) =>
    match asked t, (SqliteStore.exec env.backend (.updateCertificateSettings id name
        autoRenewEnabled renewBeforeDays createRenewedMarker) w.db).1 with
    | some (.update key request _ _), .ok () => some (key, request)
    | _, _ => none
  | _ => none

/-- The last of the updates that is about the certificate. -/
def lastUpdate (id : Id) (updates : List (Id × UpdateRequest)) : Option UpdateRequest :=
  ((updates.filter fun update => update.1 = id).getLast?).map Prod.snd

/-- The settings that the updates leave of those there were at first. -/
def settingsAfter (updates : List (Id × UpdateRequest)) (id : Id) (first : Settings) : Settings :=
  ((lastUpdate id updates).map requestedSettings).getD first

theorem settingsAfter_skip (updates : List (Id × UpdateRequest)) (id : Id) (first : Settings)
    {more : Option (Id × UpdateRequest)} (other : ∀ update ∈ more, update.1 ≠ id) :
    settingsAfter (updates ++ more.toList) id first = settingsAfter updates id first := by
  cases more with
  | none => rw [Option.toList_none, List.append_nil]
  | some update =>
    have away : update.1 ≠ id := other update rfl
    simp [settingsAfter, lastUpdate, away]

theorem settingsAfter_update (updates : List (Id × UpdateRequest)) (id : Id) (first : Settings)
    (request : UpdateRequest) :
    settingsAfter (updates ++ [(id, request)]) id first = requestedSettings request := by
  simp [settingsAfter, lastUpdate]

/-- A row that has been there from the start has the settings of the last committed update, and
a thread that updates asks for what its request names. -/
def settled (env : Environment) (asked : Nat → Option Asked) (start : Db) :
    Assertion Eff Ans (World × List (Nat × Eff × World)) Local (Outcome Unit) where
  world w := start.certificates.next ≤ w.1.db.certificates.next ∧
    ∀ id first row, start.row id = some first → w.1.db.row id = some row →
      settingsOf row = settingsAfter (w.2.filterMap (committed env asked)) id (settingsOf first)
  thread t th _ := ∀ id request actor clientIP, asked t = some (.update id request actor clientIP) →
    Only (fun _ _ => True) (OfUpdate id request) th.prog

/-- Every other call leaves the settings of a row alone. -/
theorem settings_kept {t : Nat} {e : Eff} {w : World} {id : Id} {row : Certificate}
    (other : ∀ key name autoRenewEnabled renewBeforeDays createRenewedMarker,
      e ≠ .store (.updateCertificateSettings key name autoRenewEnabled renewBeforeDays
        createRenewedMarker))
    (old : id < w.db.certificates.next) (there : (exec env t e w).2.db.row id = some row) :
    ∃ before, w.db.row id = some before ∧ settingsOf row = settingsOf before := by
  cases e with
  | store q =>
    have there : (SqliteStore.exec env.backend q w.db).2.row id = some row := there
    cases exec_row env.backend q w.db id with
    | same kept => exact ⟨row, kept ▸ there, rfl⟩
    | changed u change kept =>
      rw [kept] at there
      obtain ⟨before, found, rfl⟩ := Option.map_eq_some_iff.mp there
      refine ⟨before, found, ?_⟩
      cases q with
      | updateCertificateSettings => exact absurd rfl (other _ _ _ _ _)
      | markCertificateIssued | markCertificateRenewed | markCertificateFailed
      | setCertificateStatus => cases change; rfl
      | _ => cases change
    | created value query new kept => exact absurd new (Nat.ne_of_lt old)
    | deleted event query present kept =>
      rw [kept] at there
      cases there
  | _ =>
    rw [ServiceSteps.exec_db fun q => Eff.noConfusion] at there
    exact ⟨row, there, rfl⟩

/-- The statement of an update settles its own row, when it is accepted. -/
theorem settings_set {B : Backend} {db : Db} {id key : Id} (settings : Settings)
    {row : Certificate}
    (there : (SqliteStore.exec B (.updateCertificateSettings key settings.name
      settings.autoRenewEnabled settings.renewBeforeDays
      settings.createRenewedMarker) db).2.row id = some row) :
    ∃ before, db.row id = some before ∧
      settingsOf row = match (SqliteStore.exec B (.updateCertificateSettings key settings.name
          settings.autoRenewEnabled settings.renewBeforeDays
          settings.createRenewedMarker) db).1 with
        | .ok _ => if key = id then settings else settingsOf before
        | .error _ => settingsOf before := by
  split
  · rename_i answer
    obtain ⟨ok, state⟩ := exec_ok answer
    rw [state] at there
    simp only [act] at ok there
    split at ok
    · cases ok
    split at ok
    · cases ok
    · rename_i found bounded
      rw [found] at there
      simp only [if_neg bounded, Db.row_tick] at there
      rw [Db.row_update] at there
      by_cases same : id = key
      · subst same
        rw [if_pos rfl] at there
        obtain ⟨before, found, rfl⟩ := Option.map_eq_some_iff.mp there
        exact ⟨before, found, by rw [if_pos rfl]; rfl⟩
      · rw [if_neg same] at there
        exact ⟨row, there, by rw [if_neg (Ne.symm same)]⟩
  · rename_i answer
    rw [exec_error answer] at there
    exact ⟨row, there, rfl⟩

/-- A second run goes along with the threads as they stand. -/
def Accompanied (env : Environment) (asked : Nat → Option Asked) (db : Db)
    (c : Config Eff Ans (World × List (Nat × Eff × World)) Local (Outcome Unit)) : Prop :=
  ∃ d, (tie env asked (asksFor db)).Linked (pace (asksFor db)) (fun r r' => r' = r)
    ⟨c.threads, c.world.1⟩ d

/-- A thread whose request is no update makes no statement of one. -/
theorem unsettling {db : Db} {c : Config Eff Ans (World × List (Nat × Eff × World)) Local
      (Outcome Unit)} (known : Accompanied env asked db c) {t : Nat} {e : Eff}
    {k : Ans e → Operation (Outcome Unit)} {l : Local} (running : c.threads t = some ⟨.call e k, l⟩)
    (present : updating asked t = false) (key : Id) (name : String) (autoRenewEnabled : Bool)
    (renewBeforeDays : Int) (createRenewedMarker : Bool) :
    e ≠ .store (.updateCertificateSettings key name autoRenewEnabled renewBeforeDays
      createRenewedMarker) := by
  rintro rfl
  obtain ⟨d, linked⟩ := known
  have away : ¬ (tie env asked (asksFor db)).absent t := by
    change ¬ updating asked t = true
    simp [present]
  obtain ⟨p', -, paced⟩ := linked.paced t _ running away
  rcases paced.known with ⟨certificate, f, file, -⟩ | ⟨e', alike⟩
  · cases file
  · cases alike with
    | plain plain => exact plain.elim

theorem settled_call {start : Db} {t : Nat} {e : Eff} {w : World}
    {log : List (Nat × Eff × World)} (numbered : start.certificates.next ≤ w.db.certificates.next)
    (h : ∀ id first row, start.row id = some first → w.db.row id = some row →
      settingsOf row = settingsAfter (log.filterMap (committed env asked)) id (settingsOf first))
    (theirs : ∀ key name autoRenewEnabled renewBeforeDays createRenewedMarker,
      e = .store (.updateCertificateSettings key name autoRenewEnabled renewBeforeDays
        createRenewedMarker) →
      ∃ request actor clientIP, asked t = some (.update key request actor clientIP) ∧
        ⟨name, autoRenewEnabled, renewBeforeDays, createRenewedMarker⟩ = requestedSettings request)
    (id : Id) (first row : Certificate) (begun : start.row id = some first)
    (there : (exec env t e w).2.db.row id = some row) :
    settingsOf row = settingsAfter ((log ++ [(t, e, w)]).filterMap (committed env asked)) id
      (settingsOf first) := by
  have more : (log ++ [(t, e, w)]).filterMap (committed env asked) =
      log.filterMap (committed env asked) ++ (committed env asked (t, e, w)).toList := by
    rw [List.filterMap_append]
    cases update : committed env asked (t, e, w) with
    | none => simp [update]
    | some v => simp [update]
  have old : id < w.db.certificates.next := Nat.lt_of_lt_of_le (Db.lt_next_of_row begun) numbered
  rw [more]
  by_cases settles : ∃ key name autoRenewEnabled renewBeforeDays createRenewedMarker,
      e = .store (.updateCertificateSettings key name autoRenewEnabled renewBeforeDays
        createRenewedMarker)
  · obtain ⟨key, name, autoRenewEnabled, renewBeforeDays, createRenewedMarker, rfl⟩ := settles
    obtain ⟨request, actor, clientIP, asks, values⟩ := theirs _ _ _ _ _ rfl
    obtain ⟨before, found, set⟩ := settings_set
      ⟨name, autoRenewEnabled, renewBeforeDays, createRenewedMarker⟩ there
    cases answer : (SqliteStore.exec env.backend (.updateCertificateSettings key name
        autoRenewEnabled renewBeforeDays createRenewedMarker) w.db).1 with
    | ok v =>
      simp only [committed, asks, answer] at set ⊢
      by_cases mine : key = id
      · subst mine
        rw [set, if_pos rfl, Option.toList_some, settingsAfter_update, values]
      · rw [set, if_neg mine, settingsAfter_skip, h id first before begun found]
        rintro _ ⟨⟩
        exact mine
    | error err =>
      simp only [committed, asks, answer] at set ⊢
      rw [set, h id first before begun found, Option.toList_none, List.append_nil]
  · have other : ∀ key name autoRenewEnabled renewBeforeDays createRenewedMarker,
        e ≠ .store (.updateCertificateSettings key name autoRenewEnabled renewBeforeDays
          createRenewedMarker) := fun key name a r m same => settles ⟨key, name, a, r, m, same⟩
    obtain ⟨before, found, same⟩ := settings_kept other old there
    have silent : committed env asked (t, e, w) = none := by
      cases e with
      | store q =>
        cases q with
        | updateCertificateSettings => exact absurd rfl (other _ _ _ _ _)
        | _ => rfl
      | _ => rfl
    rw [same, h id first before begun found, silent, Option.toList_none, List.append_nil]

theorem settled_stable (env : Environment) (s : Service) (asked : Nat → Option Asked) (start : Db) :
    (settled env asked start).Stable (pool env s).recording (keepingMarkers env start).recording
      (Accompanied env asked start) where
  own c t e k l known holds running _ _ := by
    obtain ⟨numbered, settings⟩ := holds.world
    have follows := holds.thread t _ running
    refine ⟨⟨Nat.le_trans numbered ServiceSteps.exec_next_mono,
      settled_call numbered settings ?_⟩, ?_⟩
    · intro key name autoRenewEnabled renewBeforeDays createRenewedMarker same
      cases updates : updating asked t with
      | false => exact absurd same (unsettling known running updates _ _ _ _ _)
      | true =>
        cases asks : asked t with
        | none => simp [updating, asks] at updates
        | some a =>
          cases a with
          | update id request actor clientIP =>
            subst same
            obtain ⟨rfl, values⟩ := (follows id request actor clientIP asks).1
            exact ⟨request, actor, clientIP, rfl, values⟩
          | _ => simp [updating, asks, Asked.updates] at updates
    · intro id request actor clientIP asks
      exact (follows id request actor clientIP asks).2 _ trivial
  other c t e k l u th _ holds _ _ _ _ there := holds.thread u th there
  start _ _ _ _ _ _ _ starts := starts.elim
  spawn c t e k l u th known _ running child _ _ := by
    obtain ⟨d, linked⟩ := known
    have alone := (tie_kept env s asked start).alone t e (linked.known running)
    cases alone.symm.trans child
  crash _ _ holds _ := holds.world

end Settling

section Sample

end Sample

end SettingsCommute
