import CertMate.RecordStates
import CertMate.LoneCreations

/-!
# The life of a certificate

The life that the statuses are meant to describe, as a machine of its own, and the service
as one way to run it. A gate looks at a status that was read before the lock was taken, so
the service keeps to the machine as long as nobody takes the lock with a status that is out
of date. Then every run moves every certificate along its life, through all interleavings
of requests and scans, failing calls, kills and restarts.
-/
namespace LifeCycles
open CertificateModel CallTrees ThreadPools ServiceWorld CertificateService ServiceProtocol
  ServiceSteps ServicePool OperationCalls RecordStates
open GateSteps (PastGate setter)
open LoneCreations (Lawful gate_issuing creates_of_set)
open DeleteExclusion (Creates)
open SqliteStore hiding exec

/-- From one status to the next. -/
inductive Passes : Status → Status → Prop
  | reissue : Passes .active .issuing
  | retry : Passes .failed .issuing
  | renew : Passes .active .renewing
  | issued : Passes .issuing .active
  | renewed : Passes .renewing .active
  | failIssue : Passes .issuing .failed
  | failRenewal : Passes .renewing .failed
  | revoke : Passes .active .revoked

/-- The certificates there are, with their statuses, and the first number that has not been
given out. -/
structure Register where
  next : Id
  status : Id → Option Status

inductive Moves : Register → Register → Prop
  | create {r : Register} : Moves r ⟨r.next + 1, Function.update r.status r.next (some .issuing)⟩
  | pass {r : Register} {id : Id} {status status' : Status} (there : r.status id = some status)
    (passes : Passes status status') :
    Moves r ⟨r.next, Function.update r.status id (some status')⟩
  | delete {r : Register} {id : Id} {status : Status} (there : r.status id = some status) :
    Moves r ⟨r.next, Function.update r.status id none⟩

/-- Revoked, or deleted. -/
def Register.Ended (r : Register) (id : Id) : Prop :=
  id < r.next ∧ (r.status id = some .revoked ∨ r.status id = none)

theorem Moves.ended {r r' : Register} {id : Id} (move : Moves r r') (ended : r.Ended id) :
    r'.Ended id := by
  obtain ⟨old, final⟩ := ended
  cases move with
  | create =>
    have other : id ≠ r.next := Nat.ne_of_lt old
    refine ⟨Nat.lt_succ_of_lt old, ?_⟩
    dsimp only
    rw [Function.update_of_ne other]
    exact final
  | @pass key status status' there passes =>
    have other : id ≠ key := by
      rintro rfl
      rcases final with revoked | gone
      · cases revoked.symm.trans there
        cases passes
      · cases gone.symm.trans there
    refine ⟨old, ?_⟩
    dsimp only
    rw [Function.update_of_ne other]
    exact final
  | @delete key status there =>
    refine ⟨old, ?_⟩
    by_cases same : id = key
    · subst same
      exact Or.inr (Function.update_self _ _ _)
    · dsimp only
      rw [Function.update_of_ne same]
      exact final

/-- Whatever has ended never comes back. -/
theorem ended_stays {r r' : Register} (moves : Relation.ReflTransGen Moves r r') {id : Id}
    (ended : r.Ended id) : r'.Ended id := by
  induction moves with
  | refl => exact ended
  | tail _ move ih => exact move.ended ih

def registerOf (w : World) : Register where
  next := w.db.certificates.next
  status id := (w.db.row id).map Certificate.status

/-- Nobody takes a lock with a status that would pass the gate and is out of date. -/
def timely : Discipline Eff Ans World Local (Outcome Unit) where
  start _ _ := True
  call c t e :=
    match e with
    | .tryLock lock => ∀ k l v row, c.threads t = some ⟨.call (.tryLock lock) k, l⟩ →
        l.phase = .found v lock → c.world.holder lock = none → l.request.gate v = true →
        c.world.db.row v.id = some row → row.status = v.status
    | _ => True
  crash _ := True

/-- The status that a request gives to a certificate it works on. -/
def pending : Request → Status
  | .renew _ _ _ _ | .worker _ _ _ => .renewing
  | _ => .issuing

/-- The status that the record of a certificate has while somebody past the gate holds its
lock. -/
def expected (request : Request) : Phase → Option Status
  | .held value _ => if request.gate value then some value.status else none
  | .marked _ (some _) | .working _ (some _) _ _ => some (pending request)
  | .revoking value _ | .revoked value _ => some value.status
  | _ => none

theorem past_of_expected {request : Request} {phase : Phase} {status : Status}
    (h : expected request phase = some status) : PastGate request phase := by
  cases phase with
  | held value lock =>
    simp only [expected, Option.ite_none_right_eq_some] at h
    exact h.1
  | marked value lock | working value lock =>
    cases lock with
    | none => cases h
    | some lock => trivial
  | revoking | revoked => trivial
  | _ => cases h

/-- The record says what its operation expects. -/
def Abreast (l : Local) (w : World) : Prop :=
  ∀ v status row, l.phase.value = some v → expected l.request l.phase = some status →
    w.db.row v.id = some row → row.status = status

/-- What is known of every reachable configuration. -/
structure Known (env : Environment) (s : Service) (c : Configuration) : Prop extends
    Lawful env s c where
  deciding : (Deciding env s).Holds c
  records : records.Holds c

section Known
variable {env : Environment} {s : Service} {D : Discipline Eff Ans World Local (Outcome Unit)}
  {c c' : Configuration}

theorem Known.step (known : Known env s c) (hs : Step (pool env s) D c c') : Known env s c' where
  toLawful := known.toLawful.step hs
  deciding := deciding_stable.step trivial known.deciding hs
  records := records_stable.step ⟨known.sound, known.deciding⟩ known.records hs

theorem Known.start (started : Started c)
    (stored : ∀ id row, c.world.db.row id = some row → Shaped row) : Known env s c where
  toLawful := .start started
  deciding := started.holds trivial
  records := started.holds stored

end Known

/-- A call that sets no status, or has failed to. -/
def Spares (phase : Phase) (e : Eff) (r : Ans e) : Prop :=
  Still phase e r ∨ ∀ q, e = .store q → q.setsStatus = none

/-- What an operation expects it has expected before, or has just found or set. -/
theorem expected_before {request : Request} {phase phase' : Phase} {e : Eff} {r : Ans e}
    {v : Certificate} {status : Status} (move : Move request phase e r phase')
    (value : phase'.value = some v) (expects : expected request phase' = some status) :
    phase.value = some v ∧ expected request phase = some status ∧ Spares phase e r ∨
      (∃ lock, phase = .found v lock ∧ e = .tryLock lock ∧ HEq r true ∧
        request.gate v = true ∧ status = v.status) ∨
      ∃ lock target, phase = .held v lock ∧ e = .store (.setCertificateStatus v.id target) ∧
        HEq r (Except.ok (ε := Error) ()) ∧ (target = .renewing ∨ target = .issuing) ∧
        status = pending request := by
  cases move with
  | stay still => exact Or.inl ⟨value, expects, Or.inl still⟩
  | @take v' lock =>
    cases value
    simp only [expected, Option.ite_none_right_eq_some, Option.some.injEq] at expects
    exact Or.inr (Or.inl ⟨lock, rfl, rfl, HEq.rfl, expects.1, expects.2.symm⟩)
  | @mark v' lock target gate either =>
    cases value
    cases expects
    exact Or.inr (Or.inr ⟨lock, target, rfl, rfl, HEq.rfl, either, rfl⟩)
  | @beginRevoke v' lock run job about gate revokes =>
    cases value
    have held : expected request (.held v lock) = some v.status := if_pos gate
    refine Or.inl ⟨rfl, held.trans expects, Or.inr ?_⟩
    rintro q ⟨⟩
    rfl
  | @work v' lock run job about =>
    cases lock with
    | none => cases expects
    | some lock =>
      refine Or.inl ⟨value, expects, Or.inr ?_⟩
      rintro q ⟨⟩
      rfl
  | @deliver v' lock e r material got =>
    cases lock with
    | none => cases expects
    | some lock =>
      refine Or.inl ⟨value, expects, Or.inr ?_⟩
      rintro q rfl
      cases got
  | @publish v' lock material p progress e r safe matching allowed honest =>
    cases lock with
    | none => cases expects
    | some lock =>
      refine Or.inl ⟨value, expects, Or.inr ?_⟩
      rintro q ⟨⟩
  | revoke =>
    refine Or.inl ⟨value, expects, Or.inr ?_⟩
    rintro q ⟨⟩
  | release mine done next =>
    rcases next with rfl | ⟨v', -, rfl⟩ <;> cases expects
  | _ => cases expects

theorem status_of_spares {env : Environment} {t : Nat} {e : Eff} {w : World} {phase : Phase}
    {id : Id} (spares : Spares phase e (exec env t e w).1) {row row' : Certificate}
    (there : w.db.row id = some row) (there' : (exec env t e w).2.db.row id = some row') :
    row'.status = row.status := by
  obtain ⟨before, found, same | ⟨q, rfl, set⟩⟩ := row_status (Db.lt_next_of_row there) there'
  · cases there.symm.trans found
    exact same
  · rcases spares with still | silent
    · cases q with
      | setCertificateStatus key status =>
        cases answer : (exec env t (.store (.setCertificateStatus key status)) w).1 with
        | ok v =>
          rw [answer] at still
          exact still.elim
        | error err =>
          have kept := SqliteStore.exec_error answer
          change (SqliteStore.exec env.backend _ w.db).2.row id = some row' at there'
          rw [kept, Db.row_tick, there] at there'
          cases there'
          rfl
      | markCertificateIssued | markCertificateRenewed | markCertificateFailed => exact still.elim
      | _ => cases set
    · cases (silent q rfl).symm.trans set

/-- What is written is what the request has the certificate wait for. -/
theorem target_pending {request : Request} {id : Id} {target : Status}
    (decides : Decides request (.store (.setCertificateStatus id target)))
    (either : target = .renewing ∨ target = .issuing) : target = pending request := by
  rcases decides with ⟨rfl, issues⟩ | ⟨rfl, renews⟩ | ⟨rfl, -⟩
  · cases request <;> first | rfl | exact issues.elim
  · cases request <;> first | rfl | exact renews.elim
  · rcases either with h | h <;> cases h

section Call
variable {env : Environment} {s : Service} {c : Configuration} {t : Nat} {e : Eff}
  {k : Ans e → Operation (Outcome Unit)} {l : Local} (known : Known env s c)
  (running : c.threads t = some ⟨.call e k, l⟩)
include known running

theorem abreast_own (ok : timely.call c t e) (abreast : Abreast l c.world) :
    Abreast { l with phase := note l.phase e (exec env t e c.world).1 }
      (exec env t e c.world).2 := by
  intro v status row value expects there
  have standing := known.sound.standing running
  have decides : Decides l.request e := allowed_of_conforming known.deciding running
  rcases expected_before (known.sound.move running) value expects with
    ⟨before, expects, spares⟩ | ⟨lock, phase, rfl, taken, gate, rfl⟩ |
      ⟨lock, target, phase, rfl, answer, either, rfl⟩
  · obtain ⟨row₀, found, -⟩ := row_status (standing.old v before) there
    exact (status_of_spares spares found there).trans (abreast v status row₀ before expects found)
  · rw [exec_db fun q he => by cases he] at there
    exact ok k l v row running phase (free_of_taken (eq_of_heq taken)) gate there
  · rw [← target_pending decides either]
    exact SqliteStore.setCertificateStatus_ok (eq_of_heq answer) there

/-- Nobody but the operation that holds the lock sets the status. -/
theorem abreast_other {u : Nat} {th : Thread Eff Ans Local (Outcome Unit)} (away : u ≠ t)
    (there : c.threads u = some th) (abreast : Abreast th.seen c.world) :
    Abreast th.seen (exec env t e c.world).2 := by
  intro v status row value expects found
  have mine := known.sound.standing there
  have yours := known.sound.standing running
  have past := past_of_expected expects
  obtain ⟨row₀, before, same | ⟨q, rfl, set⟩⟩ := row_status (mine.old v value) found
  · exact same.trans (abreast v status row₀ value expects before)
  · obtain ⟨v', value', named, past' | creating, -⟩ := setter (known.sound.allowed running) set
    · obtain ⟨v₁, lock, value₁, has⟩ := past.lock
      cases value.symm.trans value₁
      obtain ⟨v₂, lock', value₂, has'⟩ := past'.lock
      cases value'.symm.trans value₂
      exact absurd (exclusive mine yours value value' named.symm has has' before) away
    · have lone := known.unshared t _ v' running
        (creates_of_set (known.sound.allowed running) set creating)
      have issuing := (lone.others u th v away there value named.symm).1
      have passed := known.gates.thread u th there v value past
      rw [gate_issuing _ issuing] at passed
      cases passed

variable (abreast : Abreast l c.world)
include abreast

/-- A certificate that is worked on is being issued or renewed. -/
theorem status_at_work {v row : Certificate} (value : l.phase.value = some v)
    (works : Creates l.phase v ∨ expected l.request l.phase = some (pending l.request))
    (there : c.world.db.row v.id = some row) : row.status = .issuing ∨ row.status = .renewing := by
  rcases works with creates | expects
  · exact Or.inl ((known.unshared t _ v running creates).row row there).1
  · have status := abreast v _ row value expects there
    rw [status]
    cases l.request <;> simp [pending]

/-- What is set by an operation past its gate follows on what it has been let through with. -/
theorem passes_set {id : Id} {target : Status} {row : Certificate}
    (set : e = .store (.setCertificateStatus id target)) (there : c.world.db.row id = some row) :
    Passes row.status target := by
  subst set
  have allowed := known.sound.allowed running
  have decides : Decides l.request _ := allowed_of_conforming known.deciding running
  have trusted : Trusted l c.world := known.records.thread t _ running
  obtain ⟨request, phase⟩ := l
  cases phase with
  | held v lock =>
    obtain ⟨rfl, gate, either⟩ := allowed
    have same : row.status = v.status := abreast v _ row rfl (if_pos gate) there
    have shaped : Shaped v := trusted.shaped v rfl rfl
    rw [same]
    rcases decides with ⟨rfl, issues⟩ | ⟨rfl, renews⟩ | ⟨rfl, -⟩
    · cases request with
      | issue key actor clientIP =>
        rcases shaped.status with h | h | h | h | h <;>
          simp only [Request.gate, h, manualIssueAllowed, Bool.false_eq_true] at gate ⊢
        · exact .reissue
        · exact .retry
      | _ => exact issues.elim
    · rw [active_of_gate shaped gate (Or.inl renews)]
      exact .renew
    · rcases either with h | h <;> cases h
  | revoked v lock =>
    obtain ⟨rfl, rfl⟩ := allowed
    have same : row.status = v.status := abreast v _ row rfl rfl there
    have revokes : request.revokes := by
      rcases decides with ⟨h, -⟩ | ⟨h, -⟩ | ⟨-, revokes⟩
      · cases h
      · cases h
      · exact revokes
    rw [same, active_of_gate (trusted.shaped v rfl rfl) (trusted.gated v rfl trivial)
      (Or.inr revokes)]
    exact .revoke
  | _ => exact allowed.elim

/-- Every change of a status is one of the life of the certificate. -/
theorem status_passes {id : Id} {row row' : Certificate} (there : c.world.db.row id = some row)
    (there' : (exec env t e c.world).2.db.row id = some row') :
    row'.status = row.status ∨ Passes row.status row'.status := by
  obtain ⟨before, found, same | ⟨q, rfl, set⟩⟩ := row_status (Db.lt_next_of_row there) there'
  · cases there.symm.trans found
    exact Or.inl same
  refine Or.inr ?_
  have atWork : ∀ v lock, l.phase = .marked v lock ∨
      (∃ got progress, l.phase = .working v lock got progress) → v.id = id →
        row.status = .issuing ∨ row.status = .renewing := by
    intro v lock works named
    subst named
    have value : l.phase.value = some v := by
      rcases works with h | ⟨got, progress, h⟩ <;> rw [h] <;> rfl
    refine status_at_work known running abreast value ?_ there
    cases lock with
    | none => exact Or.inl works
    | some lock =>
      refine Or.inr ?_
      rcases works with h | ⟨got, progress, h⟩ <;> rw [h] <;> rfl
  have allowed := known.sound.allowed running
  cases q with
  | setCertificateStatus key target =>
    cases set
    exact passes_set known running abreast rfl there
  | markCertificateFailed key message =>
    obtain ⟨rfl, failed⟩ : key = id ∧ Status.failed = row'.status := by
      simpa [Query.setsStatus] using set
    rw [← failed]
    have begun : row.status = .issuing ∨ row.status = .renewing := by
      cases phase : l.phase with
      | marked v lock =>
        rw [phase] at allowed
        exact atWork v lock (Or.inl phase) (Eq.symm allowed)
      | working v lock got progress =>
        rw [phase] at allowed
        exact atWork v lock (Or.inr ⟨got, progress, phase⟩) (Eq.symm allowed.1)
      | _ =>
        rw [phase] at allowed
        exact allowed.elim
    rcases begun with h | h <;> rw [h]
    · exact .failIssue
    · exact .failRenewal
  | markCertificateIssued value | markCertificateRenewed value =>
    obtain ⟨rfl, active⟩ : value.id = id ∧ Status.active = row'.status := by
      simpa [Query.setsStatus] using set
    rw [← active]
    have begun : row.status = .issuing ∨ row.status = .renewing := by
      cases phase : l.phase with
      | working v lock got progress =>
        rw [phase] at allowed
        cases got with
        | none => exact allowed.elim
        | some material =>
          cases progress with
          | released =>
            obtain rfl : value = withMaterial v material := allowed
            exact atWork v lock (Or.inr ⟨_, _, phase⟩) rfl
          | _ => exact allowed.elim
      | _ =>
        rw [phase] at allowed
        exact allowed.elim
    rcases begun with h | h <;> rw [h]
    · exact .issued
    · exact .renewed
  | _ => cases set

end Call

/-- A statement changes one record at most. -/
theorem row_alone {B : Backend} {q : Query} {db : Db} {id j : Id}
    (changed : (SqliteStore.exec B q db).2.row id ≠ db.row id) (other : j ≠ id) :
    (SqliteStore.exec B q db).2.row j = db.row j := by
  cases exec_row B q db j with
  | same row => exact row
  | changed u change row =>
    cases exec_row B q db id with
    | same row => exact absurd row changed
    | changed u' change' row' =>
      cases change.symm.trans change'
      exact absurd rfl other
    | created value query new row => rw [query] at change; cases change
    | deleted event query present row => rw [query] at change; cases change
  | created value query new row =>
    subst query
    cases exec_row B (.createCertificate value) db id with
    | same row => exact absurd row changed
    | changed u change row' => cases change
    | created value' query' new' row' => exact absurd (new.trans new'.symm) other
    | deleted event query' present row' => cases query'
  | deleted event query present row =>
    subst query
    cases exec_row B (.deleteCertificateWithAudit j event) db id with
    | same row => exact absurd row changed
    | changed u change row' => cases change
    | created value' query' new' row' => cases query'
    | deleted event' query' present' row' =>
      cases query'
      exact absurd rfl other

/-- A number is given out with a record. -/
theorem next_given (B : Backend) (q : Query) (db : Db) :
    (SqliteStore.exec B q db).2.certificates.next = db.certificates.next ∨
      ∃ value, q = .createCertificate value ∧
        (SqliteStore.exec B q db).2.certificates.next = db.certificates.next + 1 ∧
        (SqliteStore.exec B q db).2.row db.certificates.next ≠ db.row db.certificates.next := by
  cases q with
  | createCertificate value =>
    cases answer : (SqliteStore.exec B (.createCertificate value) db).1 with
    | error err =>
      rw [SqliteStore.exec_error answer]
      exact Or.inl rfl
    | ok created =>
      obtain ⟨-, there, next, -⟩ := createCertificate_ok answer
      refine Or.inr ⟨value, rfl, next, ?_⟩
      intro same
      exact absurd (Db.lt_next_of_row (same.symm.trans there)) (Nat.lt_irrefl _)
  | _ =>
    refine Or.inl ?_
    unfold SqliteStore.exec
    split
    · rfl
    · simp only [act]
      repeat' first | split | rfl

section Runs
variable {env : Environment} {s : Service} {c c' : Configuration}

/-- What a statement that changes a record makes of the register. -/
theorem register_of_changed {t : Nat} {q : Query} {w : World} {id : Id} {status : Option Status}
    {next : Id} (changed : (exec env t (.store q) w).2.db.row id ≠ w.db.row id)
    (after : (registerOf (exec env t (.store q) w).2).status id = status)
    (numbers : (exec env t (.store q) w).2.db.certificates.next = next) :
    registerOf (exec env t (.store q) w).2 =
      ⟨next, Function.update (registerOf w).status id status⟩ := by
  subst after numbers
  refine congrArg (Register.mk _) (funext fun j => ?_)
  by_cases here : j = id
  · subst here
    rw [Function.update_self]
    rfl
  · rw [Function.update_of_ne here]
    exact congrArg (Option.map Certificate.status) (row_alone changed here)

/-- A call that leaves the records as they are moves nothing, one that changes a record moves
its certificate. -/
theorem moves_call {t : Nat} {e : Eff} {k : Ans e → Operation (Outcome Unit)} {l : Local}
    (known : Known env s c) (running : c.threads t = some ⟨.call e k, l⟩)
    (abreast : Abreast l c.world) : registerOf (exec env t e c.world).2 = registerOf c.world ∨
      Moves (registerOf c.world) (registerOf (exec env t e c.world).2) := by
  by_cases query : ∃ q, e = .store q
  swap
  · refine Or.inl ?_
    simp only [registerOf, exec_db fun q he => query ⟨q, he⟩]
  obtain ⟨q, rfl⟩ := query
  have given := next_given env.backend q c.world.db
  by_cases same : ∀ id, (exec env t (.store q) c.world).2.db.row id = c.world.db.row id
  · refine Or.inl ?_
    rcases given with numbers | ⟨-, -, -, changed⟩
    · change Register.mk _ _ = Register.mk _ _
      rw [Register.mk.injEq]
      exact ⟨numbers, funext fun id => congrArg (Option.map Certificate.status) (same id)⟩
    · exact absurd (same _) changed
  obtain ⟨id, changed⟩ := not_forall.mp same
  cases exec_row env.backend q c.world.db id with
  | same row => exact absurd row changed
  | changed u change row =>
    cases found : c.world.db.row id with
    | none => exact absurd (row.trans (by rw [found]; rfl)) changed
    | some before =>
      rw [found, Option.map_some] at row
      have numbers : (exec env t (.store q) c.world).2.db.certificates.next =
          c.world.db.certificates.next := by
        rcases given with numbers | ⟨value, rfl, -, -⟩
        · exact numbers
        · cases change
      have there : (registerOf c.world).status id = some before.status :=
        congrArg (Option.map Certificate.status) found
      rw [register_of_changed changed (congrArg (Option.map Certificate.status) row) numbers]
      rcases status_passes known running abreast found row with kept | passes
      · refine Or.inl ?_
        change Register.mk _ (Function.update _ id (some (u.apply before).status)) = _
        rw [kept, ← there, Function.update_eq_self]
        rfl
      · exact Or.inr (.pass there passes)
  | created value query new row =>
    subst query
    have allowed := known.sound.allowed running
    have issuing : value.status = .issuing := allowed.2.2
    have after : (registerOf (exec env t (.store (.createCertificate value)) c.world).2).status id =
        some .issuing :=
      (congrArg (Option.map Certificate.status) row).trans (congrArg some issuing)
    have numbers : (exec env t (.store (.createCertificate value)) c.world).2.db.certificates.next =
        c.world.db.certificates.next + 1 := by
      rcases given with numbers | ⟨-, -, numbers, -⟩
      · have born := Db.lt_next_of_row row
        rw [new] at born
        exact absurd (born.trans_eq numbers) (Nat.lt_irrefl _)
      · exact numbers
    rw [register_of_changed changed after numbers, new]
    exact Or.inr .create
  | deleted event query present row =>
    subst query
    obtain ⟨before, found⟩ := present
    have there : (registerOf c.world).status id = some before.status :=
      congrArg (Option.map Certificate.status) found
    have numbers : (SqliteStore.exec env.backend (.deleteCertificateWithAudit id event)
        c.world.db).2.certificates.next = c.world.db.certificates.next := by
      rcases given with numbers | ⟨value, query, -, -⟩
      · exact numbers
      · cases query
    rw [register_of_changed changed (congrArg (Option.map Certificate.status) row) numbers]
    exact Or.inr (.delete there)

/-- Every operation that holds a lock knows the status. -/
def abreast : Assertion Eff Ans World Local (Outcome Unit) where
  world _ := True
  thread _ th w := Abreast th.seen w

theorem abreast_new (request : Request) (w : World) : Abreast ⟨request, .idle⟩ w := by
  intro v status row value
  cases value

theorem abreast_stable : abreast.Stable (pool env s) timely (Known env s) where
  own _ t _ _ _ known h running _ ok :=
    ⟨trivial, abreast_own known running ok (h.thread t _ running)⟩
  other _ _ _ _ _ u th known h running _ _ away there :=
    abreast_other known running away there (h.thread u th there)
  start c _ _ _ _ _ starts _ := by
    obtain ⟨request, -, rfl⟩ := starts
    exact abreast_new request c.world
  spawn _ _ _ _ _ _ _ _ _ _ made _ _ := by
    obtain ⟨request, rfl⟩ := spawn_some made
    exact abreast_new request _
  crash _ _ _ _ := trivial

/-- A step of the service is no move of the machine, or one. -/
theorem moves_step (known : Known env s c) (h : abreast.Holds c)
    (hs : Step (pool env s) timely c c') :
    registerOf c'.world = registerOf c.world ∨
      Moves (registerOf c.world) (registerOf c'.world) := by
  cases hs with
  | @call t e k l running enabled alone ok =>
    exact moves_call known running (h.thread t _ running)
  | @spawn t u e k l th running enabled child free ok =>
    exact moves_call known running (h.thread t _ running)
  | _ => exact Or.inl rfl

/-- The service runs the machine. However requests, scans, failing calls, kills and restarts
are interleaved, if nobody takes a lock with a status that would pass the gate and is out of
date, every step is no move or one, so the certificates move along their lives, and what is
revoked or deleted never comes back. -/
theorem service_runs_life {start c c' : Configuration} (started : Started start)
    (stored : ∀ id row, start.world.db.row id = some row → Shaped row)
    (run : Reach (pool env s) timely start c) (later : Reach (pool env s) timely c c') :
    (∀ d, Step (pool env s) timely c d → registerOf d.world = registerOf c.world ∨
        Moves (registerOf c.world) (registerOf d.world)) ∧
      Relation.ReflTransGen Moves (registerOf c.world) (registerOf c'.world) ∧
      ∀ id, (registerOf c.world).Ended id → (registerOf c'.world).Ended id := by
  have keeps : ∀ d d' : Configuration, Known env s d ∧ abreast.Holds d →
      Step (pool env s) timely d d' → Known env s d' ∧ abreast.Holds d' :=
    fun _ _ h hs => ⟨h.1.step hs, abreast_stable.step h.1 h.2 hs⟩
  have begun : Known env s start ∧ abreast.Holds start :=
    ⟨.start started stored, started.holds trivial⟩
  have known : Known env s c ∧ abreast.Holds c := Reach.invariant _ _ keeps run begun
  have all : (Known env s c' ∧ abreast.Holds c') ∧
      Relation.ReflTransGen Moves (registerOf c.world) (registerOf c'.world) := by
    refine Reach.invariant _ _ (I := fun d => (Known env s d ∧ abreast.Holds d) ∧
      Relation.ReflTransGen Moves (registerOf c.world) (registerOf d.world)) ?_ later ⟨known, .refl⟩
    rintro d d' ⟨h, sofar⟩ hs
    refine ⟨keeps d d' h hs, ?_⟩
    rcases moves_step h.1 h.2 hs with same | move
    · rw [same]
      exact sofar
    · exact sofar.tail move
  exact ⟨fun d hs => moves_step known.1 known.2 hs, all.2, fun id => ended_stays all.2⟩

end Runs

/-- What `timely` asks of a call. -/
def onTime (c : Configuration) (t : Nat) (e : Eff) : Bool :=
  match e with
  | .tryLock _ =>
    match c.threads t with
    | some th =>
      match th.seen.phase with
      | .found v _ => (c.world.db.row v.id).all fun row => decide (row.status = v.status)
      | _ => true
    | none => true
  | _ => true

theorem onTime_timely {c : Configuration} {t : Nat} {e : Eff} (h : onTime c t e = true) :
    timely.call c t e := by
  cases e with
  | tryLock lock =>
    rintro k l v row running phase - - there
    simpa [onTime, running, phase, there] using h
  | _ => trivial

def creationAndRenewal : Configuration :=
  requested emptyWorld [.renew 0 false "admin" "", .createSelfSigned monthRequest "admin" ""]

/-- The first call creates the certificate, and after the creation it is renewed. -/
theorem service_runs_life_month : ∃ d c' : Configuration,
    Step (pool monthEnvironment sampleService) timely creationAndRenewal d ∧
      Moves (registerOf emptyWorld) (registerOf d.world) ∧
      (registerOf c'.world).status 0 = some .renewing ∧
      Relation.ReflTransGen Moves (registerOf emptyWorld) (registerOf c'.world) := by
  have played : (((pool monthEnvironment sampleService).advance onTime 0
      creationAndRenewal).bind fun d =>
        ((pool monthEnvironment sampleService).play onTime
          (List.replicate 25 0 ++ List.replicate 5 1) d).map fun c' =>
            ((registerOf d.world).status 0, (registerOf c'.world).status 0)) =
      some (some .issuing, some .renewing) := by
    decide +kernel
  obtain ⟨d, next, rest⟩ := Option.bind_eq_some_iff.mp played
  obtain ⟨c', later, seen⟩ := Option.map_eq_some_iff.mp rest
  obtain ⟨e, k, l, running, able, alone, admitted, rfl⟩ := advance_cases next
  have step : Step (pool monthEnvironment sampleService) timely creationAndRenewal
      ((pool monthEnvironment sampleService).after creationAndRenewal 0 e k l) :=
    .call running able alone (onTime_timely admitted)
  obtain ⟨issuing, renewing⟩ := Prod.mk.inj seen
  have begun : Reach (pool monthEnvironment sampleService) timely (requested emptyWorld [])
      creationAndRenewal := by
    apply requested_reach _ fun _ _ => trivial
    simp [Request.external]
  have nothing : ∀ id row, emptyWorld.db.row id = some row → Shaped row := by
    intro id row there
    cases there
  obtain ⟨steps, moves, -⟩ := service_runs_life (requested_started fun _ => rfl) nothing begun
    (.head step (play_reach (fun _ _ _ => onTime_timely) later))
  refine ⟨_, c', step, ?_, renewing, moves⟩
  rcases steps _ step with same | move
  · rw [same] at issuing
    cases issuing
  · exact move

end LifeCycles
