import CertMate.StatusClosing
import CertMate.LoneCreations

/-!
# What the next start repairs

`app.New` marks the jobs that a kill has interrupted, and leaves the certificates as they
are. A certificate whose status an operation had set stays closed to every operation. In
every run whose calls let the operations take their statuses back, these are just the
certificates that an operation has in hand at the kill.
-/
namespace RestartRecovery
open CertificateModel CallTrees ThreadPools ServiceWorld CertificateService ServiceProtocol
  ServiceSteps ServicePool StatusClosing
open Bookkeeping (underWay)
open DeleteExclusion (Creates)
open GateSteps (PastGate setter)
open LoneCreations (Lawful creates_of_set gate_issuing change_silent sets_of_change)
open SqliteStore hiding exec

/-- One of `Issue`, `Renew` and `Revoke` lets the certificate through. -/
def Workable (row : Certificate) : Prop :=
  manualIssueAllowed row.status = true ∨ renewAllowed row.status = true ∨
    row.mode = .acme ∧ revokeAllowed row.status = true

def Closed (row : Certificate) : Prop := row.status = .revoked ∨ row.status = .disabled

/-- What a start has to make of the database that a kill has left. -/
structure Recovered (before after : Db) : Prop where
  interrupted : ∀ id run, after.job id = some run → run.status ≠ .running
  untouched : ∀ id run, before.job id = some run → run.status ≠ .running →
    after.job id = some run
  certificates : ∀ id row, after.row id = some row → Workable row ∨ Closed row

/-- No certificate has a status that lasts only as long as an operation works on it. -/
def Rested (db : Db) : Prop := ∀ id row, db.row id = some row → underWay row.status = false

/-- The process is killed, and started again. -/
def killed (env : Environment) (s : Service) (c : Configuration) : Configuration :=
  ⟨fun _ => none, (pool env s).restart c.world⟩

theorem usable_iff (row : Certificate) :
    Workable row ∨ Closed row ↔ underWay row.status = false := by
  unfold Workable Closed
  cases row.status <;> simp [manualIssueAllowed, renewAllowed, revokeAllowed, underWay]

section Jobs
variable {now : Time} {db : Db} {id : Id}

theorem job_interrupted :
    (markInterruptedJobs now db).job id = (db.job id).map fun r =>
      if r.status = .running then
        { r with
          status := .interrupted
          finishedAt := some now
          errorMessage := if r.errorMessage = [] then utf8 "应用重启导致任务中断" else r.errorMessage }
      else r :=
  KeyedTables.Table.find?_mapRows _ (fun r => by split <;> rfl) id

theorem none_running {run : Run} (there : (markInterruptedJobs now db).job id = some run) :
    run.status ≠ .running := by
  rw [job_interrupted] at there
  obtain ⟨before, -, rfl⟩ := Option.map_eq_some_iff.mp there
  split
  · exact fun same => nomatch same
  · assumption

theorem others_untouched {run : Run} (there : db.job id = some run)
    (ended : run.status ≠ .running) : (markInterruptedJobs now db).job id = some run := by
  rw [job_interrupted, there, Option.map_some, if_neg ended]

end Jobs

/-- What a start makes of a database depends on the certificates alone. -/
theorem recovered_iff (env : Environment) (s : Service) (c : Configuration) :
    Recovered c.world.db (killed env s c).world.db ↔ Rested c.world.db := by
  constructor
  · intro recovered id row there
    exact (usable_iff row).mp (recovered.certificates id row there)
  · intro rested
    refine ⟨fun _ _ => none_running, fun _ _ => others_untouched, fun id row there => ?_⟩
    exact (usable_iff row).mpr (rested id row there)

/-- The certificate whose status an operation has set and for which it has not recorded an
outcome. -/
def inHand : Phase → Option Certificate
  | .marked value _ | .working value _ _ _ => some value
  | _ => none

def NoneInHand (c : Configuration) : Prop :=
  ∀ t th v, c.threads t = some th → inHand th.seen.phase = some v → c.world.db.row v.id = none

/-- The calls let the operations take their statuses back, and a kill finds no stored
certificate in hand. -/
def recording (env : Environment) : Discipline Eff Ans World Local (Outcome Unit) where
  start _ _ := True
  call c t e := ∀ th, c.threads t = some th →
    ¬ Spoils th.seen.request.creates e (exec env t e c.world).1
  crash := NoneInHand

section Moves
variable {request : Request} {phase phase' : Phase} {e : Eff} {r : Ans e}

theorem inHand_value {v : Certificate} (h : inHand phase = some v) : phase.value = some v := by
  cases phase with
  | marked | working =>
    cases h
    rfl
  | _ => cases h

/-- An operation that has a certificate in hand is past its gate, or creates it. -/
theorem gated_or_creates (request : Request) {v : Certificate} (busy : inHand phase = some v) :
    PastGate request phase ∨ Creates phase v := by
  cases phase with
  | marked value lock | working value lock got progress =>
    cases busy
    cases lock with
    | none => first | exact Or.inr (Or.inl rfl) | exact Or.inr (Or.inr ⟨_, _, rfl⟩)
    | some lock => exact Or.inl trivial
  | _ => cases busy

/-- Of a certificate in hand it is noted that its outcome is not recorded. -/
theorem note_inHand (move : Move request phase e r phase') (sound : ¬ Spoils request.creates e r)
    (kept : StatusClosing.allows (inHand phase).isSome e) :
    StatusClosing.note (inHand phase).isSome e r = (inHand phase').isSome := by
  cases move with
  | stay still =>
    cases e with
    | store q =>
      cases q with
      | createCertificate | setCertificateStatus =>
        cases r with
        | error err => rfl
        | ok v => exact still.elim
      | markCertificateIssued | markCertificateRenewed | markCertificateFailed => exact still.elim
      | _ => rfl
    | _ => rfl
  | read fresh numbered => rcases fresh with rfl | ⟨v, rfl⟩ <;> rfl
  | mark gate target => rcases target with rfl | rfl <;> rfl
  | release mine done next =>
    rcases next with rfl | ⟨v, rfl, rfl⟩
    · exact kept
    · rfl
  | @giveUp v lock message r | @fail v lock got progress message r =>
    cases r with
    | error err => exact absurd trivial sound
    | ok _ => rfl
  | deliver got =>
    cases e with
    | store q => cases got
    | _ => rfl
  | record q r mark =>
    rcases mark with rfl | rfl <;>
    · cases r with
      | error err => exact absurd trivial sound
      | ok _ => rfl
  | @recordRevoked v lock r => cases r <;> rfl
  | _ => rfl

/-- What is in hand is kept until an outcome is recorded. -/
theorem inHand_kept (move : Move request phase e r phase') (sound : ¬ Spoils request.creates e r)
    {v : Certificate} (before : inHand phase = some v)
    (kept : StatusClosing.allows (inHand phase).isSome e) :
    inHand phase' = some v ∨ ∃ (q : Query) (reply : Reply q) (status : Status), e = .store q ∧
      HEq r (Except.ok (ε := Error) reply) ∧ q.setsStatus = some (v.id, status) ∧
        underWay status = false := by
  cases move with
  | stay still => exact Or.inl before
  | work about | deliver got | publish safe matching allowed honest => exact Or.inl before
  | release mine done next =>
    rw [before] at kept
    cases kept
  | read fresh numbered => rcases fresh with rfl | ⟨v, rfl⟩ <;> cases before
  | @giveUp v lock message r | @fail v lock got progress message r =>
    cases before
    cases r with
    | error err => exact absurd trivial sound
    | ok reply => exact Or.inr ⟨_, reply, _, rfl, HEq.rfl, rfl, rfl⟩
  | record q r mark =>
    cases before
    rcases mark with rfl | rfl <;>
    · cases r with
      | error err => exact absurd trivial sound
      | ok reply => exact Or.inr ⟨_, reply, _, rfl, HEq.rfl, rfl, rfl⟩
  | _ => cases before

/-- Who sets such a status takes the certificate in hand. -/
theorem inHand_of_set {q : Query} {reply : Reply q} {id : Id} {status : Status}
    (move : Move request phase (.store q) (.ok reply) phase')
    (set : q.setsStatus = some (id, status)) :
    underWay status = false ∨ ∃ v, inHand phase' = some v ∧ v.id = id := by
  cases move with
  | stay still =>
    cases q with
    | setCertificateStatus | markCertificateIssued | markCertificateRenewed
    | markCertificateFailed => exact still.elim
    | _ => cases set
  | mark gate target =>
    cases set
    exact Or.inr ⟨_, rfl, rfl⟩
  | giveUp | fail | recordRevoked =>
    cases set
    exact Or.inl rfl
  | record q r mark =>
    rcases mark with rfl | rfl <;>
    · cases set
      exact Or.inl rfl
  | deliver got => cases got
  | _ => cases set

theorem inHand_of_create {value stored : Certificate}
    (move : Move request phase (.store (.createCertificate value)) (.ok stored) phase') :
    inHand phase' = some stored := by
  cases move with
  | stay still => exact still.elim
  | create creates issuing => rfl
  | record q r mark => rcases mark with same | same <;> cases same
  | deliver got => cases got

/-- A certificate is taken in hand with the status that is set. -/
theorem inHand_before (move : Move request phase e r phase') {v : Certificate}
    (busy : inHand phase' = some v) : inHand phase = some v ∨
      (∃ (q : Query) (reply : Reply q) (status : Status), e = .store q ∧
        HEq r (Except.ok (ε := Error) reply) ∧ q.setsStatus = some (v.id, status) ∧
          underWay status = true) ∨
      ∃ value, e = .store (.createCertificate value) ∧ HEq r (Except.ok (ε := Error) v) ∧
        value.status = .issuing := by
  cases move with
  | stay still => exact Or.inl busy
  | create creates issuing =>
    cases busy
    exact Or.inr (Or.inr ⟨_, rfl, HEq.rfl, issuing⟩)
  | mark gate target =>
    cases busy
    refine Or.inr (Or.inl ⟨_, _, _, rfl, HEq.rfl, rfl, ?_⟩)
    rcases target with rfl | rfl <;> rfl
  | work about | deliver got | publish safe matching allowed honest => exact Or.inl busy
  | release mine done next => rcases next with rfl | ⟨v', -, rfl⟩ <;> cases busy
  | _ => cases busy

/-- Nobody sets a status of what stays in hand. -/
theorem silent_of_inHand {q : Query} {answer : Ans (.store q)} {v v' : Certificate}
    (allowed : allowsQuery request phase q) (busy : inHand phase = some v)
    (stays : inHand (ServiceProtocol.note phase (.store q) answer) = some v') :
    q.setsStatus = none := by
  cases phase with
  | marked value lock | working value lock got progress =>
    cases q with
    | setCertificateStatus => exact allowed.elim
    | markCertificateIssued | markCertificateRenewed =>
      first | exact allowed.elim | cases stays
    | markCertificateFailed => cases stays
    | _ => rfl
  | _ => cases busy

end Moves

/-- A status that is written without an error is there afterwards. -/
theorem sets_ok {B : Backend} {db : Db} {q : Query} {reply : Reply q} {id : Id} {status : Status}
    (h : (SqliteStore.exec B q db).1 = .ok reply) (set : q.setsStatus = some (id, status))
    {row : Certificate} (there : (SqliteStore.exec B q db).2.row id = some row) :
    row.status = status := by
  rw [(exec_ok h).2] at there
  cases q <;> cases set <;>
  · simp only [act, Db.row_tick, Db.row_update, if_true] at there
    obtain ⟨c, -, rfl⟩ := Option.map_eq_some_iff.mp there
    rfl

/-- Every operation at work takes its status back before it unlocks and before it ends. -/
def closing : Assertion Eff Ans World Local (Outcome Unit) where
  world _ := True
  thread _ th _ := works th.seen.request →
    Closes th.seen.request.creates th.prog (inHand th.seen.phase).isSome

theorem closing_own {env : Environment} {s : Service} {c : Configuration} {t : Nat} {e : Eff}
    {k : Ans e → Operation (Outcome Unit)} {l : Local} (sound : Sound env s c)
    (running : c.threads t = some ⟨.call e k, l⟩) (ok : (recording env).call c t e)
    (closes : Closes l.request.creates (.call e k) (inHand l.phase).isSome) :
    Closes l.request.creates (k (exec env t e c.world).1)
      (inHand (ServiceProtocol.note l.phase e (exec env t e c.world).1)).isSome := by
  have unspoilt := ok _ running
  rw [← note_inHand (sound.move running) unspoilt closes.1]
  exact closes.2 _ unspoilt

theorem closing_new {s : Service} (engine : s.engine = true) (request : Request)
    (working : works request) : Closes request.creates (thread s request).prog
      (inHand (thread s request).seen.phase).isSome :=
  programOf_closes engine working

theorem closing_stable {env : Environment} {s : Service} (engine : s.engine = true) :
    closing.Stable (pool env s) (recording env) (Sound env s) where
  own _ t _ _ _ sound holds running _ ok :=
    ⟨trivial, fun working => closing_own sound running ok (holds.thread t _ running working)⟩
  other _ _ _ _ _ u _ _ holds _ _ _ _ there := holds.thread u _ there
  start _ _ _ _ _ _ started _ := by
    obtain ⟨request, -, rfl⟩ := started
    exact closing_new engine request
  spawn _ _ _ _ _ _ _ _ _ _ child _ _ := by
    obtain ⟨request, rfl⟩ := spawn_some child
    exact closing_new engine request
  crash _ _ _ _ := trivial

/-- Only the operations that work take a certificate in hand. -/
theorem works_of_inHand {env : Environment} {s : Service} {c : Configuration}
    (lawful : Lawful env s c) {t : Nat} {th : Thread Eff Ans Local (Outcome Unit)}
    (there : c.threads t = some th) {v : Certificate} (busy : inHand th.seen.phase = some v) :
    works th.seen.request := by
  have gate : PastGate th.seen.request th.seen.phase → th.seen.request.gate v = true :=
    lawful.gates.thread t th there v (inHand_value busy)
  have creates : th.seen.phase.creating = some v → th.seen.request.creates :=
    (lawful.sound.standing there).creating v
  have either := gated_or_creates th.seen.request busy
  generalize th.seen.request = request at gate creates either ⊢
  rcases either with past | creating
  · have passed := gate past
    cases request <;> trivial
  · have asked : request.creates := by
      refine creates ?_
      rcases creating with same | ⟨got, progress, same⟩ <;>
      · rw [same]
        rfl
    cases request <;> trivial

/-- A certificate says `issuing` or `renewing` while an operation has it in hand. -/
def accounts : Account World Local Id where
  settled w id := ∀ row, w.db.row id = some row → underWay row.status = false
  owes l id := ∃ v, inHand l.phase = some v ∧ v.id = id

/-- What is known where the statuses are taken back. -/
structure Recorded (env : Environment) (s : Service) (c : Configuration) : Prop extends
    Lawful env s c where
  closes : closing.Holds c

section Call
variable {env : Environment} {s : Service} {c : Configuration} {t : Nat} {e : Eff}
  {k : Ans e → Operation (Outcome Unit)} {l : Local} (known : Recorded env s c)
  (running : c.threads t = some ⟨.call e k, l⟩) (ok : (recording env).call c t e)
include known running

/-- A status that is under way after a call was so before, or the operation has just set
it. -/
theorem still_settled {id : Id} (settled : accounts.settled c.world id) :
    accounts.settled (exec env t e c.world).2 id ∨
      accounts.owes { l with phase := ServiceProtocol.note l.phase e (exec env t e c.world).1 } id := by
  have move := known.sound.move running
  rw [or_iff_not_imp_right]
  intro free row there
  by_cases query : ∃ q, e = .store q
  · obtain ⟨q, rfl⟩ := query
    change (SqliteStore.exec env.backend q c.world.db).2.row id = some row at there
    change Move l.request l.phase (.store q) (SqliteStore.exec env.backend q c.world.db).1
      (ServiceProtocol.note l.phase (.store q) (SqliteStore.exec env.backend q c.world.db).1) at move
    change ¬ ∃ v, inHand (ServiceProtocol.note l.phase (.store q)
      (SqliteStore.exec env.backend q c.world.db).1) = some v ∧ v.id = id at free
    cases answered : (SqliteStore.exec env.backend q c.world.db).1 with
    | error err =>
      rw [exec_error answered] at there
      exact settled row there
    | ok reply =>
      rw [answered] at move free
      cases exec_row env.backend q c.world.db id with
      | same row' => exact settled row (row' ▸ there)
      | changed u change row' =>
        rcases sets_of_change change with silent | ⟨status, set⟩
        · rw [row'] at there
          obtain ⟨before, found, rfl⟩ := Option.map_eq_some_iff.mp there
          rw [(change_silent change silent before).1]
          exact settled before found
        · rw [sets_ok answered set there]
          exact (inHand_of_set move set).resolve_right free
      | created value query new row' =>
        subst query
        obtain ⟨rfl, -⟩ := createCertificate_ok answered
        exact absurd ⟨_, inHand_of_create move, new.symm⟩ free
      | deleted event query present row' => cases row'.symm.trans there
  · rw [exec_db fun q same => query ⟨q, same⟩] at there
    exact settled row there

include ok

theorem accounted {id : Id} (before : accounts.settled c.world id ∨ accounts.owes l id) :
    accounts.settled (exec env t e c.world).2 id ∨
      accounts.owes { l with phase := ServiceProtocol.note l.phase e (exec env t e c.world).1 } id := by
  rcases before with settled | ⟨v, busy, rfl⟩
  · exact still_settled known running settled
  · have closes := known.closes.thread t _ running (works_of_inHand known.toLawful running busy)
    rcases inHand_kept (known.sound.move running) (ok _ running) busy closes.1 with
      kept | ⟨q, reply, status, rfl, answered, set, idle⟩
    · exact Or.inr ⟨v, kept, rfl⟩
    · refine Or.inl fun row there => ?_
      rw [sets_ok (eq_of_heq answered) set there]
      exact idle

end Call

theorem accounts_kept {env : Environment} {s : Service} :
    accounts.Kept (pool env s) (recording env) (Recorded env s) where
  call _ _ _ _ _ _ known running ok before := (accounted known running ok before).imp_right Or.inl
  finish c t r l id known running owes := by
    obtain ⟨v, busy, rfl⟩ := owes
    have closed : (inHand l.phase).isSome = false :=
      known.closes.thread t _ running (works_of_inHand known.toLawful running busy)
    rw [busy] at closed
    cases closed
  crash c id _ ok before row there := by
    rcases before with settled | ⟨t, th, running, v, busy, rfl⟩
    · exact settled row there
    · have absent := ok t th v running busy
      cases absent.symm.trans there

/-- What an operation has in hand says so. -/
def lasting : Assertion Eff Ans World Local (Outcome Unit) where
  world _ := True
  thread _ th w := ∀ v row, inHand th.seen.phase = some v → w.db.row v.id = some row →
    underWay row.status = true

section Lasting
variable {env : Environment} {s : Service} {c : Configuration} {t : Nat} {e : Eff}
  {k : Ans e → Operation (Outcome Unit)} {l : Local} (lawful : Lawful env s c)
  (holds : lasting.Holds c) (running : c.threads t = some ⟨.call e k, l⟩)
include lawful holds running

theorem lasting_own {v row : Certificate}
    (busy : inHand (ServiceProtocol.note l.phase e (exec env t e c.world).1) = some v)
    (there : (exec env t e c.world).2.db.row v.id = some row) : underWay row.status = true := by
  rcases inHand_before (lawful.sound.move running) busy with
    before | ⟨q, reply, status, rfl, answered, set, begun⟩ | ⟨value, rfl, answered, issuing⟩
  · have old := (lawful.sound.standing running).old v (inHand_value before)
    obtain ⟨row₀, there₀, same | ⟨q, rfl, set⟩⟩ := row_status old there
    · exact same ▸ holds.thread t _ running v row₀ before there₀
    · rw [silent_of_inHand (lawful.sound.allowed running) before busy] at set
      cases set
  · rw [sets_ok (eq_of_heq answered) set there]
    exact begun
  · obtain ⟨rfl, stored, -⟩ := createCertificate_ok (eq_of_heq answered)
    cases stored.symm.trans there
    change underWay value.status = true
    rw [issuing]
    rfl

theorem lasting_other {u : Nat} {th : Thread Eff Ans Local (Outcome Unit)} (away : u ≠ t)
    (beside : c.threads u = some th) {v row : Certificate} (busy : inHand th.seen.phase = some v)
    (there : (exec env t e c.world).2.db.row v.id = some row) : underWay row.status = true := by
  have value := inHand_value busy
  have mine := lawful.sound.standing beside
  obtain ⟨row₀, there₀, same | ⟨q, rfl, set⟩⟩ := row_status (mine.old v value) there
  · exact same ▸ holds.thread u th beside v row₀ busy there₀
  · have allowed := lawful.sound.allowed running
    obtain ⟨v', value', named, past, -⟩ := setter allowed set
    exfalso
    rcases gated_or_creates th.seen.request busy with gated | creates
    · rcases past with past | creating
      · obtain ⟨w, a, has, held⟩ := gated.lock
        obtain ⟨w', b, has', held'⟩ := past.lock
        exact away (exclusive mine (lawful.sound.standing running) value value' named.symm held held'
          there₀)
      · have lone := lawful.unshared t _ v' running (creates_of_set allowed set creating)
        have issuing := (lone.others u th v away beside value named.symm).1
        have passed := lawful.gates.thread u th beside v value gated
        rw [gate_issuing _ issuing] at passed
        cases passed
    · obtain ⟨issuing, none⟩ := (lawful.unshared u th v beside creates).others t _ v' away.symm running
        value' named
      rcases past with past | creating
      · have passed := lawful.gates.thread t _ running v' value' past
        rw [gate_issuing _ issuing] at passed
        cases passed
      · cases none.symm.trans creating

end Lasting

theorem lasting_stable {env : Environment} {s : Service}
    {D : Discipline Eff Ans World Local (Outcome Unit)} :
    lasting.Stable (pool env s) D (Lawful env s) where
  own _ _ _ _ _ lawful holds running _ _ :=
    ⟨trivial, fun _ _ busy there => lasting_own lawful holds running busy there⟩
  other _ _ _ _ _ _ _ lawful holds running _ _ away beside :=
    fun _ _ busy there => lasting_other lawful holds running away beside busy there
  start _ _ _ _ _ _ started _ := by
    obtain ⟨request, -, rfl⟩ := started
    exact fun _ _ busy => by cases busy
  spawn _ _ _ _ _ _ _ _ _ _ child _ _ := by
    obtain ⟨request, rfl⟩ := spawn_some child
    exact fun _ _ busy => by cases busy
  crash _ _ _ _ := trivial

/-- Of every reachable state: a status is under way exactly where an operation has the
certificate in hand. -/
structure Attended (env : Environment) (s : Service) (c : Configuration) : Prop extends
    Recorded env s c where
  lasting : lasting.Holds c
  balanced : accounts.Balanced c

theorem Attended.step {env : Environment} {s : Service} (engine : s.engine = true)
    {c c' : Configuration} (h : Attended env s c) (hs : Step (pool env s) (recording env) c c') :
    Attended env s c' where
  toLawful := h.toLawful.step hs
  closes := (closing_stable engine).step h.sound h.closes hs
  lasting := lasting_stable.step h.toLawful h.lasting hs
  balanced := accounts_kept.step h.toRecorded h.balanced hs

theorem Attended.start {env : Environment} {s : Service} {c : Configuration} (started : Started c)
    (rested : Rested c.world.db) : Attended env s c where
  toLawful := .start started
  closes := started.holds trivial
  lasting := started.holds trivial
  balanced id := Or.inl (rested id)

/-- A service that was started on a database at rest, in a run in which the calls let the
operations record what they have done: a kill is recovered from exactly if no operation has
a stored certificate in hand. The jobs always are. -/
theorem recovery_complete_iff {env : Environment} {s : Service} (engine : s.engine = true)
    {before c : Configuration} (started : Started before) (rested : Rested before.world.db)
    (run : Reach (pool env s) (recording env) before c) :
    Recovered c.world.db (killed env s c).world.db ↔ NoneInHand c := by
  have attended : Attended env s c :=
    Reach.invariant _ _ (fun _ _ => Attended.step engine) run (.start started rested)
  rw [recovered_iff]
  constructor
  · intro idle t th v there busy
    cases found : c.world.db.row v.id with
    | none => rfl
    | some row =>
      have begun := attended.lasting.thread t th there v row busy found
      rw [idle v.id row found] at begun
      cases begun
  · intro ok id row found
    rcases attended.balanced id with settled | ⟨t, th, there, v, busy, rfl⟩
    · exact settled row found
    · cases (ok t th v there busy).symm.trans found

/-- A call that lets the operation go on whatever the answer is. -/
def harmless : Eff → Bool
  | .store (.createJob _) | .store (.markCertificateIssued _) | .store (.markCertificateRenewed _)
  | .store (.markCertificateFailed _ _) | .issueSelfSigned _ _ | .issueACME _ _ | .now => false
  | _ => true

theorem recording_of_harmless {c : Configuration} {t : Nat} {e : Eff} (h : harmless e = true) :
    (recording sampleEnvironment).call c t e := by
  rintro th - spoils
  cases e with
  | store q => cases q <;> first | exact spoils | cases h
  | issueSelfSigned | issueACME | now => cases h
  | _ => exact spoils

def handsFree (c : Configuration) : Bool :=
  ((c.threads 0).bind fun th => inHand th.seen.phase).isNone

theorem free_of_handsFree {c : Configuration} (bounded : ∀ u, 1 ≤ u → c.threads u = none)
    (h : handsFree c = true) : NoneInHand c := by
  intro t th v there busy
  have first : t = 0 := by
    by_contra later
    cases (bounded t (by omega)).symm.trans there
  subst first
  unfold handsFree at h
  rw [there] at h
  change (inHand th.seen.phase).isNone = true at h
  rw [busy] at h
  cases h

def renewal : List Request := [.renew 0 true "admin" ""]

/-- A renewal is killed with the lock in its hands, which does not matter, and another with
the certificate in hand. -/
theorem recovery_complete_iff_renewal : ∃ c₁ c₂ : Configuration,
    Recovered c₁.world.db (killed sampleEnvironment sampleService c₁).world.db ∧
      Reach (pool sampleEnvironment sampleService) (recording sampleEnvironment) c₁ c₂ ∧
      ¬ Recovered c₂.world.db (killed sampleEnvironment sampleService c₂).world.db := by
  have played : ((playing (fun _ _ e => harmless e) (List.replicate 3 0)
      (requested sampleWorld renewal)).bind fun c₁ =>
      (playing (fun _ _ e => harmless e) (List.replicate 4 0)
        (requested (restart sampleEnvironment c₁.world) renewal)).map fun c₂ =>
        (handsFree c₁, (c₂.threads 0).bind fun th => inHand th.seen.phase,
          c₂.world.db.row 0 |>.map (·.id))) = some (true, some sampleCertificate, some 0) := by
    decide +kernel
  obtain ⟨c₁, locks, rest⟩ := Option.bind_eq_some_iff.mp played
  obtain ⟨c₂, marks, seen⟩ := Option.map_eq_some_iff.mp rest
  obtain ⟨free, seen⟩ := Prod.mk.inj seen
  obtain ⟨busy, stored⟩ := Prod.mk.inj seen
  have started : Started (requested sampleWorld []) := requested_started fun _ => rfl
  have rested : Rested (requested sampleWorld []).world.db := by
    intro id row there
    obtain rfl : id = 0 := Nat.lt_one_iff.mp (Db.lt_next_of_row there)
    cases there
    rfl
  have bounded := play_bounded (requested_free sampleWorld renewal) locks
  have crash := free_of_handsFree bounded free
  have begun : ∀ w, Reach (pool sampleEnvironment sampleService) (recording sampleEnvironment)
      (requested w []) (requested w renewal) :=
    fun w => requested_reach _ (fun _ _ => trivial) w renewal (by decide)
  have before := (begun sampleWorld).trans
    (play_reach (fun _ _ _ => recording_of_harmless) locks)
  have restarted : Reach (pool sampleEnvironment sampleService) (recording sampleEnvironment) c₁
      (requested (restart sampleEnvironment c₁.world) []) := .single (.crash crash)
  have after := restarted.trans ((begun _).trans
    (play_reach (fun _ _ _ => recording_of_harmless) marks))
  refine ⟨c₁, c₂, (recovery_complete_iff rfl started rested before).mpr crash, after, ?_⟩
  intro recovered
  have kept := (recovery_complete_iff rfl started rested (before.trans after)).mp recovered
  obtain ⟨th, there, inside⟩ := Option.bind_eq_some_iff.mp busy
  have absent : c₂.world.db.row 0 = none := kept 0 th _ there inside
  rw [absent] at stored
  cases stored

/-- The request is answered with an error. -/
def refuses (c : Configuration) (request : Request) : Bool :=
  match (run (exec sampleEnvironment 0) (programOf sampleService request) c.world).1 with
  | .error _ => true
  | _ => false

def stranded (c : Configuration) : Bool :=
  (c.world.db.row 0).any (fun row => underWay row.status) && refuses c (.issue 0 "admin" "") &&
    refuses c (.renew 0 true "admin" "") && refuses c (.revoke 0 "admin" "")

/-- The job is interrupted, the certificate says `renewing`, and no operation takes it. -/
theorem renewal_stranded : ∃ c : Configuration,
    Reach (pool sampleEnvironment sampleService) .any (requested sampleWorld []) c ∧
      stranded (killed sampleEnvironment sampleService c) = true ∧
      ¬ Recovered c.world.db (killed sampleEnvironment sampleService c).world.db := by
  have played : ((playing (fun _ _ _ => true) (List.replicate 5 0)
      (requested sampleWorld [.renew 0 true "admin" ""])).map fun c =>
        (stranded (killed sampleEnvironment sampleService c),
          (c.world.db.row 0).map Certificate.status)) = some (true, some .renewing) := by
    decide +kernel
  obtain ⟨c, plays, seen⟩ := Option.map_eq_some_iff.mp played
  obtain ⟨left, status⟩ := Prod.mk.inj seen
  obtain ⟨row, there, renewing⟩ := Option.map_eq_some_iff.mp status
  have begun : Reach (pool sampleEnvironment sampleService) .any (requested sampleWorld [])
      (requested sampleWorld [.renew 0 true "admin" ""]) :=
    requested_reach _ (fun _ _ => trivial) _ _ (by decide)
  refine ⟨c, begun.trans (played_reach plays), left, fun recovered => ?_⟩
  have usable := (usable_iff row).mp (recovered.certificates 0 row there)
  rw [renewing] at usable
  cases usable

end RestartRecovery
