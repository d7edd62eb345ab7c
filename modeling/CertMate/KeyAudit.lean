import CertMate.AtomicPublish
import CertMate.HttpPool
import CertMate.ServiceSteps

/-!
# Access to a private key is put on record

A response with a private key goes out whether or not the record of the access
was written. It is on record where the database takes it and no session expires
while its request is under way.
-/
namespace KeyAudit
open CertificateModel CallTrees ThreadPools SqliteStore SessionManager HttpHandlers
open ServiceCalls HttpProtocol HttpPool
open CertificateService (Service)
open LoginLimiter (Manager)

/-- The database takes the record of an event. -/
def Accepts (B : Backend) (db : Db) (event : Event) : Prop :=
  B.fails db.calls = none ∧ referenced db event.certificateID = true

/-- The event is in the table. A reference to a certificate that was deleted in
the meantime is gone. -/
def Recorded (db : Db) (event : Event) : Prop :=
  ∃ row ∈ db.audits.rows, row.eventType = event.eventType ∧ row.actor = event.actor ∧
    row.clientIP = event.clientIP ∧ row.result = event.result ∧
    ∀ id, event.certificateID = some id → id < db.certificates.next ∧
      (row.certificateID = some id ∨ row.certificateID = none ∧ db.row id = none)

section Table
variable {B : Backend} {q : Query} {db : Db} {event : Event}

/-- What a statement does to the table of events. -/
theorem exec_audits (B : Backend) (q : Query) (db : Db) :
    (∃ more, (SqliteStore.exec B q db).2.audits.rows = db.audits.rows ++ more) ∨
      ∃ id more, (SqliteStore.exec B q db).2.audits.rows =
          (db.audits.rows ++ more).map (Db.unlinkEvent id) ∧
        (SqliteStore.exec B q db).2.row id = none := by
  have same : ∃ more, db.audits.rows = db.audits.rows ++ more := ⟨[], (List.append_nil _).symm⟩
  unfold SqliteStore.exec
  split
  · exact Or.inl same
  · cases q with
    | createAuditEvent event =>
      simp only [act]
      split
      · exact Or.inl ⟨_, rfl⟩
      · exact Or.inl same
    | deleteCertificateWithAudit id event =>
      simp only [act]
      split
      · split
        · exact Or.inl same
        · refine Or.inr ⟨id, _, rfl, ?_⟩
          rw [Db.row_tick, Db.row_deleteCertificate, if_pos rfl]
      · exact Or.inl same
    | createCertificate value =>
      simp only [act]
      split
      · exact Or.inl same
      · split <;> exact Or.inl same
    | updateCertificateSettings =>
      simp only [act]
      split
      · exact Or.inl same
      · split <;> exact Or.inl same
    | certificate | createJob =>
      simp only [act]
      split <;> exact Or.inl same
    | _ => exact Or.inl same

theorem row_gone {id : Id} (old : id < db.certificates.next) (gone : db.row id = none) :
    (SqliteStore.exec B q db).2.row id = none := by
  cases found : (SqliteStore.exec B q db).2.row id with
  | none => rfl
  | some c' =>
    obtain ⟨c, there, -⟩ := exec_row_old old found
    cases gone.symm.trans there

/-- An event stays on record. -/
theorem Recorded.kept (h : Recorded db event) : Recorded (SqliteStore.exec B q db).2 event := by
  obtain ⟨row, there, eventType, actor, clientIP, result, about⟩ := h
  have known : ∀ id, event.certificateID = some id →
      id < (SqliteStore.exec B q db).2.certificates.next :=
    fun id named => Nat.lt_of_lt_of_le (about id named).1 (exec_next B q db)
  rcases exec_audits B q db with ⟨more, rows⟩ | ⟨key, more, rows, deleted⟩
  · refine ⟨row, ?_, eventType, actor, clientIP, result, fun id named => ⟨known id named, ?_⟩⟩
    · rw [rows]
      exact List.mem_append_left _ there
    · obtain ⟨old, still | ⟨none, gone⟩⟩ := about id named
      · exact Or.inl still
      · exact Or.inr ⟨none, row_gone old gone⟩
  · refine ⟨Db.unlinkEvent key row, ?_, eventType, actor, clientIP, result, fun id named =>
      ⟨known id named, ?_⟩⟩
    · rw [rows]
      exact List.mem_map.mpr ⟨row, List.mem_append_left _ there, rfl⟩
    · obtain ⟨old, still | ⟨none, gone⟩⟩ := about id named
      · by_cases same : id = key
        · subst same
          exact Or.inr ⟨if_pos still, deleted⟩
        · refine Or.inl ((if_neg fun h => same ?_).trans still)
          exact Option.some.inj (still.symm.trans h)
      · refine Or.inr ⟨(if_neg fun h => ?_).trans none, row_gone old gone⟩
        cases none.symm.trans h

/-- An event that is taken is on record. -/
theorem recorded_of_accepts (h : Accepts B db event) :
    Recorded (SqliteStore.exec B (.createAuditEvent event) db).2 event := by
  obtain ⟨through, known⟩ := h
  rw [exec_through through]
  simp only [act, if_pos known]
  refine ⟨_, List.mem_append_right _ List.mem_cons_self, rfl, rfl, rfl, rfl, fun id named => ?_⟩
  rw [named] at known
  obtain ⟨c, there⟩ := Option.isSome_iff_exists.mp known
  exact ⟨Db.lt_next_of_row there, Or.inl named⟩

end Table

section Runs
variable {env : Environment} {appName : String} {s : Service} {t : Nat} {w : World} {l : Local}

/-- The database takes every record of an access to a key, and a session that
was valid for a request does not expire before the request is answered. -/
def recorded (env : Environment) : Discipline Eff Ans World Local Reply where
  start _ _ := True
  call c t e :=
    match e with
    | .service (.store (.createAuditEvent event)) =>
      event.eventType ∈ keyEvents → Accepts env.service.backend c.world.service.db event
    | .now => ∀ th session, c.threads t = some th → th.seen.session = some session →
        session.signed env.manager = true → (∃ t' ∈ th.seen.times, t' ≤ session.expiry) →
        env.clock c.world.calls ≤ session.expiry
    | _ => True
  crash _ := True

structure Kept (m : Manager) (l : Local) (w : World) : Prop where
  stored : ∀ event ∈ l.audits, Recorded w.service.db event
  lasting : ∀ session, l.session = some session → session.signed m = true →
    ¬ Lapsed session l.times

def onRecord (m : Manager) : Assertion Eff Ans World Local Reply where
  world _ := True
  thread _ th w := Kept m th.seen w

theorem recorded_step {event : Event} (h : Recorded w.service.db event) (t : Nat) (e : Eff) :
    Recorded (exec env t e w).2.service.db event := by
  cases e with
  | service e =>
    by_cases stored : ∃ q, e = .store q
    · obtain ⟨q, rfl⟩ := stored
      exact h.kept
    · have same : (ServiceWorld.exec env.service t e w.service).2.db = w.service.db :=
        ServiceSteps.exec_db fun q he => stored ⟨q, he⟩
      change Recorded (ServiceWorld.exec env.service t e w.service).2.db event
      rw [same]
      exact h
  | save cookie cause session =>
    simp only [SessionManager.exec]
    split <;> exact h
  | limiter | present | now => exact h

variable (env) in
theorem Kept.other {m : Manager} (h : Kept m l w) (t : Nat) (e : Eff) :
    Kept m l (exec env t e w).2 :=
  ⟨fun event there => recorded_step (h.stored event there) t e, h.lasting⟩

theorem not_lapsed_cons {session : Session} {now : Int} {times : List Int}
    (h : ¬ Lapsed session times)
    (early : (∃ t' ∈ times, t' ≤ session.expiry) → now ≤ session.expiry) :
    ¬ Lapsed session (now :: times) := by
  rintro ⟨newer, t, older, split, late, valid⟩
  cases newer with
  | nil =>
    cases split
    have before := early valid
    omega
  | cons first newer =>
    cases split
    exact h ⟨newer, t, older, rfl, late, valid⟩

theorem kept_new (m : Manager) (request : Option Request) (w : World) : Kept m (.new request) w :=
  ⟨(fun _ h => nomatch h), (fun _ h => nomatch h)⟩

theorem onRecord_stable :
    (onRecord env.manager).Stable (pool env appName s) (recorded env)
      (Protocol env appName s).Holds where
  own c t e k l conforms h running _ ok := by
    have allowed : allows env.manager l e := allowed_of_conforming conforms running
    have kept : Kept env.manager l c.world := h.thread t _ running
    have after := kept.other env t e
    refine ⟨trivial, ?_⟩
    cases e with
    | service e =>
      cases e with
      | store q =>
        cases q with
        | createAuditEvent event =>
          change Kept env.manager
            (if event.eventType ∈ keyEvents then { l with audits := event :: l.audits } else l) _
          split
          · rename_i key
            refine ⟨List.forall_mem_cons.mpr ⟨?_, after.stored⟩, after.lasting⟩
            exact recorded_of_accepts (ok key)
          · exact after
        | _ => exact after
      | _ => exact after
    | limiter e => exact after
    | save cookie cause session => exact after
    | now =>
      refine ⟨after.stored, fun session found signed => ?_⟩
      exact not_lapsed_cons (kept.lasting session found signed) (ok _ session running found signed)
    | present cookie =>
      obtain ⟨unread, -⟩ := allowed
      refine ⟨after.stored, fun session found signed lapsed => ?_⟩
      obtain ⟨newer, t, older, split, -⟩ := lapsed
      change l.times = newer ++ t :: older at split
      rw [unread] at split
      cases newer <;> cases split
  other c t e _ _ u th _ h _ _ _ _ there := (h.thread u th there).other env t e
  start c _ th _ _ _ starts _ := by
    rcases starts with ⟨request, rfl⟩ | ⟨policy, rfl⟩
    · exact kept_new _ _ c.world
    · exact kept_new _ _ c.world
  spawn c t e _ _ u child _ h _ spawned _ _ := by
    cases e with
    | service e =>
      cases e with
      | startWorker scan certificate policy =>
        cases spawned
        exact kept_new _ _ _
      | _ => cases spawned
    | _ => cases spawned
  crash _ _ _ _ := trivial

/-- The event tells which certificate the request was about, who sent it and how
the key was accessed. -/
def Tells (m : Manager) (db : Db) (l : Local) (event : Event) : Prop :=
  ∃ request, l.request = some request ∧ Names request event ∧ event.actor = m.username ∧
    Recorded db event

/-- In a run in which the database takes the records and no session expires
while its request is handled, an access to a private key is on record. -/
theorem key_access_recorded {w : ServiceWorld.World} {c : Configuration}
    (run : Reach (pool env appName s) (recorded env) (opened w) c)
    {th : Thread Eff Ans Local Reply} (there : c.threads t = some th) {r : Response}
    (answered : th.prog = .ret (.response r)) (carries : carriesKey r = true) :
    ∃ event ∈ th.seen.audits, Tells env.manager c.world.service.db th.seen event := by
  obtain ⟨conforms, holds⟩ := onRecord_stable.reach
    (fun _ _ conforms step => protocol_stable.step trivial conforms step) run
    (opened_holds w _ trivial) (opened_holds w _ trivial)
  have kept : Kept env.manager th.seen c.world := holds.thread t th there
  have ends := conforms.thread t th there
  change Follows _ _ _ th.prog th.seen _ at ends
  rw [answered] at ends
  obtain ⟨cleared, request, event, mine, tried, names, named⟩ := ends carries
  obtain ⟨-, session, -, found, valid, -⟩ := cleared
  refine ⟨event, tried, request, mine, names, ?_, kept.stored event tried⟩
  exact (named session found valid.1).resolve_right (kept.lasting session found valid.1)

end Runs

section Schedules

def storedWorld : ServiceWorld.World :=
  { ServicePool.sampleWorld with fs := AtomicPublish.sampleDisk }

def revealing : Configuration :=
  asked storedWorld [⟨.issued 0, "", .revealPrivateKey 0 (some "secret")⟩, sampleLogin]

def contested : Configuration :=
  asked storedWorld [⟨.issued 0, "", .deleteCertificate 0 (some ⟨"secret", "example", false⟩)⟩,
    ⟨.issued 0, "", .revealPrivateKey 0 (some "secret")⟩, sampleLogin]

/-- What `recorded` asks of a call, as far as the sample needs it. -/
def taken (c : Configuration) (t : Nat) (e : Eff) : Bool :=
  match e with
  | .service (.store (.createAuditEvent event)) =>
    (sampleEnvironment.service.backend.fails c.world.service.db.calls).isNone &&
      referenced c.world.service.db event.certificateID
  | .now => ((c.threads t).bind fun th => th.seen.session).all fun session =>
      !session.signed sampleEnvironment.manager ||
        decide (sampleEnvironment.clock c.world.calls ≤ session.expiry)
  | _ => true

theorem recorded_of_taken {c : Configuration} {t : Nat} {e : Eff} (h : taken c t e = true) :
    (recorded sampleEnvironment).call c t e := by
  cases e with
  | service e =>
    cases e with
    | store q =>
      cases q with
      | createAuditEvent event =>
        intro _
        simp only [taken, Bool.and_eq_true] at h
        exact ⟨Option.isNone_iff_eq_none.mp h.1, h.2⟩
      | _ => trivial
    | _ => trivial
  | now =>
    intro th session there found signed _
    simp only [taken, there, Option.bind_some, found, Option.all_some, signed, Bool.not_true,
      Bool.false_or, decide_eq_true_eq] at h
    exact h
  | _ => trivial

/-- A thread has answered with a private key. -/
def disclosing (th : Thread Eff Ans Local Reply) : Bool :=
  match th.prog with
  | .ret (.response r) => carriesKey r
  | _ => false

theorem discloses_of_disclosing {th : Thread Eff Ans Local Reply} (h : disclosing th = true) :
    ∃ r, th.prog = .ret (.response r) ∧ carriesKey r = true := by
  unfold disclosing at h
  split at h
  · exact ⟨_, by assumption, h⟩
  · cases h

theorem key_access_recorded_reveal : ∃ (c : Configuration) (th : Thread Eff Ans Local Reply),
    c.threads 1 = some th ∧ disclosing th = true ∧
      ∃ event ∈ th.seen.audits,
        Tells sampleEnvironment.manager c.world.service.db th.seen event := by
  have played : ((samplePool.play taken (List.replicate 8 0 ++ List.replicate 11 1)
      revealing).bind fun c => (c.threads 1).map disclosing) = some true := by
    decide +kernel
  obtain ⟨c, schedule, seen⟩ := Option.bind_eq_some_iff.mp played
  obtain ⟨th, there, discloses⟩ := Option.map_eq_some_iff.mp seen
  obtain ⟨r, answered, carries⟩ := discloses_of_disclosing discloses
  have run := (asked_reach (fun _ _ => trivial) _ _).trans
    (play_reach (D := recorded sampleEnvironment) (fun _ _ _ => recorded_of_taken) schedule)
  exact ⟨c, th, there, discloses, key_access_recorded run there answered carries⟩

/-- The certificate is deleted after its key was read: the record is refused and
the key is sent. -/
theorem key_access_unrecorded : ¬ ∀ (env : Environment) (appName : String) (s : Service)
    (w : ServiceWorld.World) (c : Configuration) (t : Nat) (th : Thread Eff Ans Local Reply)
    (r : Response), Reach (pool env appName s) .any (opened w) c → c.threads t = some th →
      th.prog = .ret (.response r) → carriesKey r = true →
      ∃ event, Tells env.manager c.world.service.db th.seen event := by
  intro claim
  have played : ((samplePool.play (fun _ _ _ => true)
      (List.replicate 8 0 ++ List.replicate 10 1 ++ List.replicate 13 2 ++ [1]) contested).bind
        fun c => (c.threads 1).map fun th => (disclosing th, th.seen.request.map Request.route,
          c.world.service.db.audits.rows.map Event.eventType)) =
      some (true, some (.revealPrivateKey 0 (some "secret")),
        ["auth.login", "certificate.delete"]) := by
    decide +kernel
  obtain ⟨c, schedule, seen⟩ := Option.bind_eq_some_iff.mp played
  obtain ⟨th, there, outcome⟩ := Option.map_eq_some_iff.mp seen
  obtain ⟨discloses, rest⟩ := Prod.mk.inj outcome
  obtain ⟨mine, table⟩ := Prod.mk.inj rest
  obtain ⟨r, answered, carries⟩ := discloses_of_disclosing discloses
  have run := (asked_reach (fun _ _ => trivial) _ _).trans
    (play_reach (D := .any) (fun _ _ _ _ => trivial) schedule)
  obtain ⟨event, request, mine', names, -, row, stored, eventType, -⟩ :=
    claim sampleEnvironment "CertMate" ServicePool.sampleService storedWorld c 1 th r run there
      answered carries
  have route : request.route = .revealPrivateKey 0 (some "secret") := by
    rw [mine'] at mine
    exact Option.some.inj mine
  rw [Names, route] at names
  have kind : "private_key.view" ∈ c.world.service.db.audits.rows.map Event.eventType :=
    List.mem_map.mpr ⟨row, stored, eventType.trans names.2⟩
  rw [table] at kind
  exact absurd kind (by decide)

end Schedules

end KeyAudit
