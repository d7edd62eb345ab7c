import CertMate.SchedulerController

/-!
# Updates and stops side by side

Any number of `Update` and `Stop` calls on a controller that has been started.
Every instance that runs is in the controller's field or owed by an operation;
the policy in memory is the stored one as long as updates swap in the order in
which they have written.
-/
namespace SchedulerRuns
open CallTrees ThreadPools SchedulerController

inductive Request where
  | update (policy : Policy)
  | stop
  deriving DecidableEq, Repr

/-- How far an operation is: `written` and `running` carry the policy and the
number of its write. -/
inductive Phase where
  | idle
  | built (i : Nat) (spec : Spec)
  | written (i : Nat) (policy : Policy) (version : Nat)
  | running (i : Nat) (policy : Policy) (version : Nat)
  | retiring (i : Nat)
  | ended
  deriving DecidableEq, Repr

/-- The instance that an operation has made and not yet handed over. -/
def Phase.made : Phase → Option Nat
  | .built i _ | .written i _ _ | .running i _ _ => some i
  | _ => none

/-- The policy that an operation has written and not yet put in memory. -/
def Phase.unswapped : Phase → Option (Policy × Nat)
  | .written _ policy version | .running _ policy version => some (policy, version)
  | _ => none

/-- What is remembered of an operation under way; the calls are the last first. -/
structure Local where
  request : Request
  phase : Phase
  calls : List Eff
  deriving DecidableEq, Repr

abbrev Configuration := Config Eff Ans World Local (Except String Unit)

/-- The calls that leave every schedule as it is. -/
def Harmless : Eff → Prop
  | .startCron _ | .swap _ _ _ | .takeCron | .stopCron _ => False
  | _ => True

def allows (l : Local) : Eff → Prop
  | .newCron _ => l.phase = .idle
  | .updateRenewalPolicy policy => ∃ i, l.phase = .built i (specOf policy)
  | .startCron i => ∃ policy version, l.phase = .written i policy version
  | .swap i _ policy =>
    ∃ written version, l.phase = .running i written version ∧ SamePolicy policy written
  | .takeCron => l.phase = .idle
  | .stopCron i => l.phase = .retiring i
  | _ => True

/-- An operation that has put an instance in place, or taken one out, goes on
with the one that was there before. -/
def retire : Option Nat → Phase
  | some old => .retiring old
  | none => .ended

def advance (phase : Phase) : (e : Eff) → Ans e → Phase
  | .newCron spec, i => .built i spec
  | .updateRenewalPolicy policy, .ok version =>
    match phase with
    | .built i _ => .written i policy version
    | phase => phase
  | .startCron _, _ =>
    match phase with
    | .written i policy version => .running i policy version
    | phase => phase
  | .swap _ _ _, old => retire old
  | .takeCron, old => retire old
  | .stopCron _, _ => .ended
  | _, _ => phase

def note (l : Local) (e : Eff) (r : Ans e) : Local :=
  { l with phase := advance l.phase e r, calls := e :: l.calls }

def program (env : Environment) : Request → Operation (Except String Unit)
  | .update policy => update env policy
  | .stop => stop

def thread (env : Environment) (request : Request) : Thread Eff Ans Local (Except String Unit) :=
  ⟨program env request, ⟨request, .idle, []⟩⟩

def pool (env : Environment) : System Eff Ans World Local (Except String Unit) where
  exec := exec env
  enabled _ _ _ := true
  note := note
  spawn _ _ := none
  starts th := ∃ request, th = thread env request
  restart w := w

/-- An operation ends with nothing in hand; an update that fails has touched no
schedule. -/
structure Ends (r : Except String Unit) (l : Local) : Prop where
  swapped : l.phase.unswapped = none
  retired : ∀ i, l.phase ≠ .retiring i
  harmless : ∀ policy err, l.request = .update policy → r = .error err → ∀ e ∈ l.calls, Harmless e

abbrev Keeps (env : Environment) (p : Operation (Except String Unit)) (l : Local) : Prop :=
  Follows (fun _ _ => True) allows (pool env).note p l Ends

theorem specOf_eq {p q : Policy} (h : SamePolicy p q) : specOf p = specOf q := by
  have enabled := congrArg Policy.enabled h
  have expression := congrArg Policy.cronExpression h
  have timezone := congrArg Policy.timezone h
  simp only [specOf] at *
  rw [enabled, expression, timezone]

/-- What `Update` does with the instance it has built. -/
def handOver (policy : Policy) (instanceId entryID : Nat) : Operation (Except String Unit) := do
  match ← Prog.perform (Eff.updateRenewalPolicy policy) with
  | .error err => return .error err
  | .ok _ =>
    let updatedAt ← Prog.perform Eff.now
    Prog.perform (Eff.startCron instanceId)
    match ← Prog.perform (Eff.swap instanceId entryID { policy with updatedAt := updatedAt }) with
    | none => return .ok ()
    | some old =>
      Prog.perform (Eff.stopCron old)
      return .ok ()

theorem handOver_keeps (env : Environment) (policy : Policy) (instanceId entryID : Nat) :
    Keeps env (handOver policy instanceId entryID)
      ⟨.update policy, .built instanceId (specOf policy), [.newCron (specOf policy)]⟩ := by
  refine follows_call.mpr ⟨⟨instanceId, rfl⟩, fun r _ => ?_⟩
  cases r with
  | error err =>
    refine ⟨rfl, (fun _ h => by cases h), fun _ _ _ _ e he => ?_⟩
    simp only [pool, note, List.mem_cons, List.not_mem_nil, or_false] at he
    rcases he with rfl | rfl <;> trivial
  | ok version =>
    refine follows_call.mpr ⟨trivial, fun updatedAt _ => ?_⟩
    refine follows_call.mpr ⟨⟨policy, version, rfl⟩, fun _ _ => ?_⟩
    refine follows_call.mpr ⟨⟨policy, version, rfl, rfl⟩, fun old _ => ?_⟩
    cases old with
    | none => exact ⟨rfl, (fun _ h => by cases h), fun _ _ _ h => by cases h⟩
    | some old =>
      refine follows_call.mpr ⟨rfl, fun _ _ => ?_⟩
      exact ⟨rfl, (fun _ h => by cases h), fun _ _ _ h => by cases h⟩

theorem update_keeps (env : Environment) (policy : Policy) :
    Keeps env (update env policy) ⟨.update policy, .idle, []⟩ := by
  have refused : ∀ err, Ends (.error err) ⟨.update policy, .idle, []⟩ :=
    fun err => ⟨rfl, (fun _ h => by cases h), fun _ _ _ _ e he => by cases he⟩
  have failed : ∀ i err, Ends (.error err)
      ⟨.update policy, .built i (specOf policy), [.newCron (specOf policy)]⟩ := by
    intro i err
    refine ⟨rfl, (fun _ h => by cases h), fun _ _ _ _ e he => ?_⟩
    rw [List.mem_singleton.mp he]
    trivial
  unfold update build
  by_cases valid : validate env policy = true
  · simp only [valid, Bool.not_true, Bool.false_eq_true, if_false]
    refine follows_call.mpr ⟨rfl, fun i _ => ?_⟩
    by_cases enabled : policy.enabled = true
    · by_cases parsed : env.parses policy.cronExpression = true
      · simp only [enabled, parsed, if_true]
        exact handOver_keeps env policy i 1
      · simp only [enabled, parsed, if_true, Bool.false_eq_true, if_false]
        exact failed i _
    · simp only [enabled, Bool.false_eq_true, if_false]
      exact handOver_keeps env policy i 0
  · simp only [valid, Bool.not_false, if_true]
    exact refused _

theorem stop_keeps (env : Environment) : Keeps env stop ⟨.stop, .idle, []⟩ := by
  refine follows_call.mpr ⟨trivial, fun _ _ => ?_⟩
  refine follows_call.mpr ⟨rfl, fun old _ => ?_⟩
  cases old with
  | none => exact ⟨rfl, (fun _ h => nomatch h), fun _ _ h => nomatch h⟩
  | some old =>
    refine follows_call.mpr ⟨rfl, fun _ _ => ?_⟩
    exact ⟨trivial, fun _ _ => ⟨rfl, (fun _ h => nomatch h), fun _ _ h => nomatch h⟩⟩

theorem program_keeps (env : Environment) (request : Request) :
    Keeps env (program env request) ⟨request, .idle, []⟩ := by
  cases request with
  | update policy => exact update_keeps env policy
  | stop => exact stop_keeps env

/-- What a call makes of an instance. -/
def touch (e : Eff) (i : Nat) (x : Instance) : Instance :=
  match e with
  | .startCron j => if j = i then { x with started := true } else x
  | .swap j _ _ => if j = i then { x with installed := true } else x
  | .stopCron j => if j = i then { x with stopped := true } else x
  | _ => x

theorem touch_harmless {e : Eff} (harmless : Harmless e) (i : Nat) (x : Instance) :
    touch e i x = x := by
  cases e <;> first | rfl | exact harmless.elim

section Effects
variable (env : Environment) (t : Nat) (e : Eff) (w : World)

theorem exec_instance {i : Nat} {x : Instance} (there : w.instances[i]? = some x) :
    (exec env t e w).2.instances[i]? = some (touch e i x) := by
  have altered : ∀ j f, (w.alter j f).instances[i]? = some (if j = i then f x else x) := by
    intro j f
    rw [World.alter, List.getElem?_modify, there]
    split <;> rfl
  cases e with
  | newCron spec =>
    have bound : i < w.instances.length := (List.getElem?_eq_some_iff.mp there).1
    exact (List.getElem?_append_left bound).trans there
  | startCron j => exact altered j _
  | swap j entryID policy => exact altered j _
  | stopCron j => exact altered j _
  | renewalPolicy | updateRenewalPolicy | awaitJobs =>
    simp only [exec]
    split <;> exact there
  | takeCron | cancel | now => exact there

/-- An instance that is there was there before, or has just been made. -/
theorem exec_instance_back {i : Nat} {y : Instance}
    (there : (exec env t e w).2.instances[i]? = some y) :
    (∃ x, w.instances[i]? = some x ∧ y = touch e i x) ∨
      ∃ spec, e = .newCron spec ∧ i = w.instances.length ∧ y = ⟨spec, false, false, t, false⟩ := by
  cases before : w.instances[i]? with
  | some x =>
    rw [exec_instance env t e w before] at there
    exact Or.inl ⟨x, rfl, (Option.some.inj there).symm⟩
  | none =>
    have beyond : w.instances.length ≤ i := List.getElem?_eq_none_iff.mp before
    have altered : ∀ j f, (w.alter j f).instances[i]? = none := by
      intro j f
      rw [World.alter, List.getElem?_modify, before]
      rfl
    cases e with
    | newCron spec =>
      refine Or.inr ⟨spec, rfl, ?_⟩
      change (w.instances ++ [_])[i]? = some y at there
      rw [List.getElem?_append_right beyond] at there
      obtain ⟨bound, same⟩ := List.getElem?_eq_some_iff.mp there
      simp only [List.length_singleton] at bound
      have first : i = w.instances.length := by omega
      subst first
      simp only [Nat.sub_self, List.getElem_cons_zero] at same
      exact ⟨rfl, same.symm⟩
    | startCron j => cases (altered j _).symm.trans there
    | swap j entryID policy => cases (altered j _).symm.trans there
    | stopCron j => cases (altered j _).symm.trans there
    | renewalPolicy | updateRenewalPolicy | awaitJobs =>
      simp only [exec] at there
      split at there <;> cases before.symm.trans there
    | takeCron | cancel | now => cases before.symm.trans there

theorem exec_cron : (exec env t e w).2.cron =
    match e with
    | .swap i _ _ => some i
    | .takeCron => none
    | _ => w.cron := by
  cases e with
  | renewalPolicy | updateRenewalPolicy | awaitJobs => simp only [exec]; split <;> rfl
  | _ => rfl

theorem exec_policy : (exec env t e w).2.policy =
    match e with
    | .swap _ _ policy => policy
    | _ => w.policy := by
  cases e with
  | renewalPolicy | updateRenewalPolicy | awaitJobs => simp only [exec]; split <;> rfl
  | _ => rfl

theorem exec_entryID (harmless : Harmless e) : (exec env t e w).2.entryID = w.entryID := by
  cases e with
  | renewalPolicy | updateRenewalPolicy | awaitJobs => simp only [exec]; split <;> rfl
  | swap => exact harmless.elim
  | _ => rfl

end Effects

/-- An instance that fires. -/
def Live (w : World) (i : Nat) : Prop :=
  ∃ x, w.instances[i]? = some x ∧ x.started = true ∧ x.stopped = false

/-- A harmless call leaves the schedules and the fields alone. -/
theorem harmless_frame (env : Environment) {e : Eff} (harmless : Harmless e) (t : Nat) (w : World) :
    (exec env t e w).2.cron = w.cron ∧ (exec env t e w).2.entryID = w.entryID ∧
      (exec env t e w).2.policy = w.policy ∧ ∀ i, Live (exec env t e w).2 i ↔ Live w i := by
  refine ⟨?_, exec_entryID env t e w harmless, ?_, fun i => ⟨?_, ?_⟩⟩
  · rw [exec_cron]
    cases e <;> first | rfl | exact harmless.elim
  · rw [exec_policy]
    cases e <;> first | rfl | exact harmless.elim
  · rintro ⟨y, there, started, stopped⟩
    rcases exec_instance_back env t e w there with ⟨x, before, rfl⟩ | ⟨spec, -, -, rfl⟩
    · rw [touch_harmless harmless] at started stopped
      exact ⟨x, before, started, stopped⟩
    · cases started
  · rintro ⟨x, there, started, stopped⟩
    have kept := exec_instance env t e w there
    rw [touch_harmless harmless] at kept
    exact ⟨x, kept, started, stopped⟩

def Phase.spec : Phase → Option Spec
  | .built _ spec => some spec
  | .written _ policy _ | .running _ policy _ => some (specOf policy)
  | _ => none

def Phase.launched : Phase → Prop
  | .running _ _ _ => True
  | _ => False

/-- What an operation knows of the instance it has in hand. -/
structure Owns (t : Nat) (phase : Phase) (w : World) : Prop where
  made : ∀ i, phase.made = some i → ∃ x, w.instances[i]? = some x ∧ x.maker = t ∧
    x.installed = false ∧ x.stopped = false ∧ phase.spec = some x.spec ∧
    (phase.launched → x.started = true)
  retired : ∀ i, phase = .retiring i → w.cron ≠ some i ∧
    ∃ x, w.instances[i]? = some x ∧ x.installed = true

theorem owns_nothing {t : Nat} {phase : Phase} {w : World} (made : phase.made = none)
    (retired : ∀ i, phase ≠ .retiring i) : Owns t phase w :=
  ⟨(fun _ h => nomatch made.symm.trans h), fun i h => absurd h (retired i)⟩

/-- The instance in the controller's field fires, for the policy in memory. -/
def Scheduled (w : World) : Prop :=
  ∀ i, w.cron = some i → ∃ x, w.instances[i]? = some x ∧ x.started = true ∧ x.stopped = false ∧
    x.installed = true ∧ x.spec = specOf w.policy

section Ownership
variable {env : Environment} {t : Nat} {l : Local} {e : Eff} {w : World}

/-- A call by another thread spares the instance in hand. -/
theorem owns_frame {u : Nat} {phase : Phase} (mine : Owns u phase w) (yours : Owns t l.phase w)
    (away : u ≠ t) (allowed : allows l e) : Owns u phase (exec env t e w).2 := by
  constructor
  · intro i made
    obtain ⟨x, there, maker, installed, stopped, spec, launched⟩ := mine.made i made
    refine ⟨touch e i x, exec_instance env t e w there, ?_⟩
    cases e with
    | startCron j =>
      simp only [touch]
      split
      · exact ⟨maker, installed, stopped, spec, fun _ => rfl⟩
      · exact ⟨maker, installed, stopped, spec, launched⟩
    | swap j entryID policy =>
      obtain ⟨written, version, running, -⟩ := allowed
      obtain ⟨y, there', maker', -⟩ := yours.made j (by rw [running]; rfl)
      have other : j ≠ i := by
        rintro rfl
        cases there.symm.trans there'
        exact away (maker.symm.trans maker')
      simp only [touch, if_neg other]
      exact ⟨maker, installed, stopped, spec, launched⟩
    | stopCron j =>
      obtain ⟨-, y, there', installed'⟩ := yours.retired j allowed
      have other : j ≠ i := by
        rintro rfl
        cases there.symm.trans there'
        rw [installed] at installed'
        cases installed'
      simp only [touch, if_neg other]
      exact ⟨maker, installed, stopped, spec, launched⟩
    | _ => exact ⟨maker, installed, stopped, spec, launched⟩
  · intro i retiring
    obtain ⟨absent, x, there, installed⟩ := mine.retired i retiring
    constructor
    · rw [exec_cron]
      cases e with
      | swap j entryID policy =>
        obtain ⟨written, version, running, -⟩ := allowed
        obtain ⟨y, there', -, installed', -⟩ := yours.made j (by rw [running]; rfl)
        rintro ⟨⟩
        cases there.symm.trans there'
        rw [installed] at installed'
        cases installed'
      | takeCron => exact fun h => by cases h
      | _ => exact absent
    · refine ⟨touch e i x, exec_instance env t e w there, ?_⟩
      cases e with
      | startCron j | swap j | stopCron j =>
        simp only [touch]
        split <;> first | exact installed | rfl
      | _ => exact installed

/-- What the own call makes of the instance in hand. -/
theorem owns_own (scheduled : Scheduled w) (mine : Owns t l.phase w) (allowed : allows l e) :
    Owns t (advance l.phase e (exec env t e w).1) (exec env t e w).2 := by
  have retire_owns : ∀ old : Option Nat, (∀ i, old = some i → (exec env t e w).2.cron ≠ some i ∧
      ∃ x, (exec env t e w).2.instances[i]? = some x ∧ x.installed = true) →
      Owns t (retire old) (exec env t e w).2 := by
    intro old known
    cases old with
    | none => exact owns_nothing rfl (fun _ h => nomatch h)
    | some old =>
      refine ⟨(fun _ h => nomatch h), fun i h => ?_⟩
      cases h
      exact known old rfl
  have kept : Harmless e → (∀ spec, e ≠ .newCron spec) → Owns t l.phase (exec env t e w).2 := by
    intro harmless old
    obtain ⟨cron, -, -, -⟩ := harmless_frame env harmless t w
    have same : ∀ (i : Nat) (x : Instance), w.instances[i]? = some x →
        (exec env t e w).2.instances[i]? = some x := by
      intro i x there
      have kept := exec_instance env t e w there
      rwa [touch_harmless harmless] at kept
    constructor
    · intro i made
      obtain ⟨x, there, rest⟩ := mine.made i made
      exact ⟨x, same i x there, rest⟩
    · intro i retiring
      obtain ⟨absent, x, there, installed⟩ := mine.retired i retiring
      exact ⟨cron ▸ absent, x, same i x there, installed⟩
  cases e with
  | newCron spec =>
    refine ⟨fun i made => ?_, fun i h => nomatch h⟩
    cases made
    refine ⟨_, List.getElem?_concat_length, rfl, rfl, rfl, rfl, fun h => h.elim⟩
  | updateRenewalPolicy policy =>
    have before := kept trivial (fun _ h => nomatch h)
    obtain ⟨i, phase⟩ := allowed
    cases answer : (exec env t (.updateRenewalPolicy policy) w).1 with
    | error err => exact before
    | ok version =>
      rw [phase] at before ⊢
      exact ⟨fun j made => before.made j made, fun j h => nomatch h⟩
  | startCron i =>
    obtain ⟨policy, version, phase⟩ := allowed
    rw [phase] at mine ⊢
    refine ⟨fun j made => ?_, fun j h => nomatch h⟩
    cases made
    obtain ⟨x, there, maker, installed, stopped, spec, -⟩ := mine.made i rfl
    refine ⟨touch (.startCron i) i x, exec_instance env t _ w there, ?_⟩
    simp only [touch, if_true]
    exact ⟨maker, installed, stopped, spec, fun _ => trivial⟩
  | swap i entryID policy =>
    obtain ⟨written, version, phase, -⟩ := allowed
    rw [phase] at mine
    obtain ⟨y, there', -, installed', -⟩ := mine.made i rfl
    refine retire_owns w.cron fun j old => ?_
    obtain ⟨x, there, -, -, installed, -⟩ := scheduled j old
    constructor
    · rintro ⟨⟩
      cases there.symm.trans there'
      rw [installed] at installed'
      cases installed'
    · refine ⟨touch (.swap i entryID policy) j x, exec_instance env t _ w there, ?_⟩
      simp only [touch]
      split <;> first | exact installed | rfl
  | takeCron =>
    refine retire_owns w.cron fun j old => ?_
    obtain ⟨x, there, -, -, installed, -⟩ := scheduled j old
    exact ⟨(fun h => nomatch h), x, there, installed⟩
  | stopCron i => exact owns_nothing rfl (fun _ h => nomatch h)
  | renewalPolicy | awaitJobs | cancel | now => exact kept trivial (fun _ h => nomatch h)

/-- The field always holds an instance that fires for the policy in memory. -/
theorem scheduled_step (scheduled : Scheduled w) (mine : Owns t l.phase w) (allowed : allows l e) :
    Scheduled (exec env t e w).2 := by
  intro i field
  rw [exec_cron] at field
  rw [exec_policy]
  cases e with
  | swap j entryID policy =>
    cases field
    obtain ⟨written, version, phase, same⟩ := allowed
    rw [phase] at mine
    obtain ⟨x, there, -, -, stopped, spec, launched⟩ := mine.made i rfl
    refine ⟨touch (.swap i entryID policy) i x, exec_instance env t _ w there, ?_⟩
    simp only [touch, if_true]
    exact ⟨launched trivial, stopped, trivial,
      (Option.some.inj spec).symm.trans (specOf_eq same).symm⟩
  | takeCron => cases field
  | stopCron j =>
    obtain ⟨x, there, started, stopped, installed, spec⟩ := scheduled i field
    obtain ⟨absent, -⟩ := mine.retired j allowed
    have other : j ≠ i := fun he => absent (he ▸ field)
    refine ⟨touch (.stopCron j) i x, exec_instance env t _ w there, ?_⟩
    simp only [touch, if_neg other]
    exact ⟨started, stopped, installed, spec⟩
  | startCron j =>
    obtain ⟨x, there, started, stopped, installed, spec⟩ := scheduled i field
    refine ⟨touch (.startCron j) i x, exec_instance env t _ w there, ?_⟩
    simp only [touch]
    split
    · exact ⟨rfl, stopped, installed, spec⟩
    · exact ⟨started, stopped, installed, spec⟩
  | _ =>
    obtain ⟨x, there, rest⟩ := scheduled i field
    exact ⟨x, exec_instance env t _ w there, rest⟩

end Ownership

section Runs
variable {env : Environment}

variable (env) in
abbrev Protocol : Assertion Eff Ans World Local (Except String Unit) :=
  conforming (pool env) (fun _ _ => True) allows Ends

theorem protocol_stable {D : Discipline Eff Ans World Local (Except String Unit)} :
    (Protocol env).Stable (pool env) D fun _ => True :=
  conforming_stable (fun _ _ _ => trivial)
    (fun _ ⟨request, same⟩ => same ▸ program_keeps env request) (fun _ _ _ h => nomatch h)

def ownership : Assertion Eff Ans World Local (Except String Unit) where
  world := Scheduled
  thread t th w := Owns t th.seen.phase w

theorem ownership_stable {D : Discipline Eff Ans World Local (Except String Unit)} :
    ownership.Stable (pool env) D (Protocol env).Holds where
  own _ t _ _ _ known holds running _ _ := by
    have allowed := allowed_of_conforming known running
    have mine := holds.thread t _ running
    exact ⟨scheduled_step holds.world mine allowed, owns_own holds.world mine allowed⟩
  other _ t _ _ _ u _ known holds running _ _ away there :=
    owns_frame (holds.thread u _ there) (holds.thread t _ running) away
      (allowed_of_conforming known running)
  start _ _ _ _ _ _ started _ := by
    obtain ⟨request, rfl⟩ := started
    exact owns_nothing rfl (fun _ h => nomatch h)
  spawn _ _ _ _ _ _ _ _ _ _ h _ _ := nomatch h
  crash _ _ holds _ := holds.world

/-- What is known of every configuration. -/
def Sound (env : Environment) (c : Configuration) : Prop :=
  (Protocol env).Holds c ∧ ownership.Holds c

theorem sound_step {D : Discipline Eff Ans World Local (Except String Unit)} {c c' : Configuration}
    (h : Sound env c) (hs : Step (pool env) D c c') : Sound env c' :=
  ⟨protocol_stable.step trivial h.1 hs, ownership_stable.step h.1 h.2 hs⟩

/-- Every instance that fires is in the field, or its operation is about to put
it there or to stop it. -/
def schedules : Account World Local Nat where
  settled w i := Live w i → w.cron = some i
  owes l i := l.phase = .retiring i ∨ l.phase.launched ∧ l.phase.made = some i

/-- Alive after a call that starts nothing is alive before. -/
theorem live_before {t : Nat} {e : Eff} {w : World} {i : Nat}
    (quiet : ∀ x, (touch e i x).started = true → x.started = true)
    (h : Live (exec env t e w).2 i) : Live w i := by
  obtain ⟨y, there, started, stopped⟩ := h
  rcases exec_instance_back env t e w there with ⟨x, found, rfl⟩ | ⟨spec, -, -, rfl⟩
  · refine ⟨x, found, quiet x started, ?_⟩
    cases e with
    | startCron j | swap j | stopCron j =>
      simp only [touch] at stopped
      split at stopped <;> first | exact stopped | cases stopped
    | _ => exact stopped
  · cases started

theorem schedules_call {t : Nat} {l : Local} {e : Eff} {w : World} {i : Nat}
    (allowed : allows l e) (before : schedules.settled w i ∨ schedules.owes l i) :
    schedules.settled (exec env t e w).2 i ∨
      schedules.owes (note l e (exec env t e w).1) i := by
  -- an instance that was in the field when the field is overwritten is owed
  have handed : ∀ e', (∀ x, (touch e' i x).started = true → x.started = true) →
      schedules.settled w i → schedules.settled (exec env t e' w).2 i ∨
        retire w.cron = .retiring i := by
    intro e' quiet settled
    by_cases field : w.cron = some i
    · exact Or.inr (by rw [field]; rfl)
    · exact Or.inl fun live => absurd (settled (live_before quiet live)) field
  have spared : Harmless e → schedules.settled w i → schedules.settled (exec env t e w).2 i := by
    intro harmless settled now
    obtain ⟨cron, -, -, live⟩ := harmless_frame env harmless t w
    exact cron.trans (settled ((live i).mp now))
  have idle : Harmless e → advance l.phase e (exec env t e w).1 = l.phase →
      schedules.settled (exec env t e w).2 i ∨ schedules.owes (note l e (exec env t e w).1) i := by
    intro harmless same
    rcases before with settled | owes
    · exact Or.inl (spared harmless settled)
    · refine Or.inr ?_
      change advance _ _ _ = _ ∨ (advance _ _ _).launched ∧ (advance _ _ _).made = _
      rw [same]
      exact owes
  cases e with
  | startCron j =>
    obtain ⟨policy, version, phase⟩ := allowed
    rcases before with settled | retiring | ⟨launched, -⟩
    · by_cases same : j = i
      · subst same
        refine Or.inr (Or.inr ?_)
        simp only [note, advance, phase]
        exact ⟨trivial, rfl⟩
      · refine Or.inl fun live => settled (live_before (fun x started => ?_) live)
        simpa only [touch, if_neg same] using started
    · cases phase.symm.trans retiring
    · rw [phase] at launched
      exact launched.elim
  | swap j entryID policy =>
    obtain ⟨written, version, phase, -⟩ := allowed
    rcases before with settled | retiring | ⟨-, made⟩
    · have quiet : ∀ x, (touch (.swap j entryID policy) i x).started = true →
          x.started = true := by
        intro x started
        simp only [touch] at started
        split at started <;> exact started
      rcases handed _ quiet settled with next | owed
      · exact Or.inl next
      · exact Or.inr (Or.inl owed)
    · cases phase.symm.trans retiring
    · rw [phase] at made
      exact Or.inl fun _ => made
  | takeCron =>
    rcases before with settled | retiring | ⟨launched, -⟩
    · rcases handed .takeCron (fun _ started => started) settled with next | owed
      · exact Or.inl next
      · exact Or.inr (Or.inl owed)
    · cases allowed.symm.trans retiring
    · rw [show l.phase = .idle from allowed] at launched
      exact launched.elim
  | stopCron j =>
    rcases before with settled | retiring | ⟨launched, -⟩
    · refine Or.inl fun live => settled (live_before (fun x started => ?_) live)
      simp only [touch] at started
      split at started <;> exact started
    · cases allowed.symm.trans retiring
      refine Or.inl fun live => ?_
      obtain ⟨y, there, -, stopped⟩ := live
      rcases exec_instance_back env t (.stopCron i) w there with ⟨x, -, rfl⟩ | ⟨spec, made, -⟩
      · simp only [touch, if_true] at stopped
        cases stopped
      · cases made
    · rw [show l.phase = .retiring j from allowed] at launched
      exact launched.elim
  | newCron spec =>
    rcases before with settled | retiring | ⟨launched, -⟩
    · exact Or.inl (spared trivial settled)
    · cases allowed.symm.trans retiring
    · rw [show l.phase = .idle from allowed] at launched
      exact launched.elim
  | updateRenewalPolicy policy =>
    obtain ⟨j, phase⟩ := allowed
    rcases before with settled | retiring | ⟨launched, -⟩
    · exact Or.inl (spared trivial settled)
    · cases phase.symm.trans retiring
    · rw [phase] at launched
      exact launched.elim
  | renewalPolicy | awaitJobs | cancel | now => exact idle trivial rfl

theorem schedules_kept : schedules.Kept (pool env) .uninterrupted (Sound env) where
  call c t e k l i known running _ before := by
    have allowed := allowed_of_conforming known.1 running
    rcases schedules_call allowed before with settled | owes
    · exact Or.inl settled
    · exact Or.inr (Or.inl owes)
  finish c t r l i known running := by
    have ends : Ends r l := known.1.thread t _ running
    rintro (retiring | ⟨launched, made⟩)
    · exact ends.retired i retiring
    · cases phase : l.phase with
      | running j policy version =>
        have swapped := ends.swapped
        rw [phase] at swapped
        cases swapped
      | _ =>
        rw [phase] at launched
        exact launched.elim
  crash _ _ _ h := h.elim

/-- The account of the live schedules closes in every run. -/
theorem schedules_balanced {c₀ c : Configuration} (sound : Sound env c₀)
    (balanced : schedules.Balanced c₀) (run : Reach (pool env) .uninterrupted c₀ c) :
    Sound env c ∧ schedules.Balanced c := by
  refine Reach.invariant _ _ (I := fun c => Sound env c ∧ schedules.Balanced c) ?_ run
    ⟨sound, balanced⟩
  intro c c' ⟨known, holds⟩ hs
  exact ⟨sound_step known hs, schedules_kept.step known holds hs⟩

end Runs

/-- A controller that has not been started. -/
structure Fresh (w : World) : Prop where
  cron : w.cron = none
  instances : w.instances = []

/-- What a fresh controller looks like after `Start`. -/
structure Begun (w w' : World) : Prop where
  cron : w'.cron = some 0
  instances : w'.instances = [⟨specOf w.stored, true, false, 0, true⟩]
  policy : w'.policy = w.stored
  stored : w'.stored = w.stored
  writes : w'.writes = w.writes

theorem start_cases (env : Environment) {w : World} (fresh : Fresh w) :
    ((run (exec env 0) (start env) w).1 = .ok () ∧ Begun w (run (exec env 0) (start env) w).2) ∨
      ((∃ err, (run (exec env 0) (start env) w).1 = .error err) ∧
        (run (exec env 0) (start env) w).2.cron = none ∧
        ∀ i, ¬ Live (run (exec env 0) (start env) w).2 i) := by
  obtain ⟨cron, instances⟩ := fresh
  have dead : ∀ i, ¬ Live w.tick i := by
    rintro i ⟨x, there, -⟩
    rw [show w.tick.instances = [] from instances] at there
    cases there
  unfold start build
  simp only [Prog.perform_bind, run_call]
  cases failing : env.fails w.calls with
  | some err =>
    refine Or.inr ?_
    simp only [exec, failing]
    exact ⟨⟨_, rfl⟩, cron, dead⟩
  | none =>
    simp only [exec, failing]
    by_cases valid : validate env w.stored = true
    · have parsed : env.parses w.stored.cronExpression = true := by
        simp only [validate, Bool.and_eq_true] at valid
        exact valid.2
      refine Or.inl ?_
      simp only [valid, parsed, Bool.not_true, Bool.false_eq_true, if_false, if_true]
      obtain ⟨stored, field, entryID, policy, made, cancelled, writes, calls⟩ := w
      subst instances
      by_cases enabled : stored.enabled = true
      · simp only [enabled, if_true]
        exact ⟨rfl, rfl, rfl, rfl, rfl, rfl⟩
      · simp only [enabled, Bool.false_eq_true, if_false]
        exact ⟨rfl, rfl, rfl, rfl, rfl, rfl⟩
    · refine Or.inr ?_
      simp only [valid, Bool.not_false, if_true]
      exact ⟨⟨_, rfl⟩, cron, dead⟩

/-- No operation under way after `Start`. -/
def afterStart (env : Environment) (w : World) : Configuration :=
  .crowd (run (exec env 0) (start env) w).2 []

theorem afterStart_sound (env : Environment) {w : World} (fresh : Fresh w) :
    Sound env (afterStart env w) ∧ schedules.Balanced (afterStart env w) := by
  have scheduled : Scheduled (run (exec env 0) (start env) w).2 ∧
      ∀ i, schedules.settled (run (exec env 0) (start env) w).2 i := by
    rcases start_cases env fresh with ⟨-, begun⟩ | ⟨-, cron, dead⟩
    · constructor
      · intro i field
        cases begun.cron.symm.trans field
        exact ⟨_, by rw [begun.instances]; rfl, rfl, rfl, rfl, by rw [begun.policy]⟩
      · rintro i ⟨x, there, -⟩
        rw [begun.instances, List.getElem?_singleton] at there
        split at there
        · rename_i first
          exact first ▸ begun.cron
        · cases there
    · refine ⟨fun i field => ?_, fun i live => absurd live (dead i)⟩
      cases cron.symm.trans field
  exact ⟨⟨⟨trivial, fun _ _ h => nomatch h⟩, scheduled.1, fun _ _ h => nomatch h⟩,
    fun i => Or.inl (scheduled.2 i)⟩

/-- The call leaves the controller's fields and the live instances alone. -/
def Spares (env : Environment) (t : Nat) (e : Eff) : Prop :=
  ∀ w, (exec env t e w).2.cron = w.cron ∧ (exec env t e w).2.entryID = w.entryID ∧
    (exec env t e w).2.policy = w.policy ∧ ∀ i, Live (exec env t e w).2 i ↔ Live w i

/-- The instance in the field, and it alone, fires, for the policy in memory. -/
def OneSchedule (w : World) : Prop :=
  (∀ i, Live w i ↔ w.cron = some i) ∧
    ∀ i, w.cron = some i → ∃ x, w.instances[i]? = some x ∧ x.spec = specOf w.policy

/-- Whatever updates and stops follow a `Start`: when none is under way the field
holds the only schedule, and no update that failed has touched one. -/
theorem one_live_schedule (env : Environment) {w : World} (fresh : Fresh w) {c : Configuration}
    (run : Reach (pool env) .uninterrupted (afterStart env w) c) :
    (c.Quiet → OneSchedule c.world) ∧
      ∀ t l policy err, c.threads t = some ⟨.ret (.error err), l⟩ → l.request = .update policy →
        ∀ e ∈ l.calls, Spares env t e := by
  obtain ⟨sound, balanced⟩ := afterStart_sound env fresh
  obtain ⟨known, closes⟩ := schedules_balanced sound balanced run
  constructor
  · intro quiet
    refine ⟨fun i => ⟨?_, fun field => ?_⟩, fun i field => ?_⟩
    · exact schedules_kept.settled_of_quiet known closes quiet i
    · obtain ⟨x, there, started, stopped, -⟩ := known.2.world i field
      exact ⟨x, there, started, stopped⟩
    · obtain ⟨x, there, -, -, -, spec⟩ := known.2.world i field
      exact ⟨x, there, spec⟩
  · intro t l policy err ended request e called w
    have ends : Ends (.error err) l := known.1.thread t _ ended
    exact harmless_frame env (ends.harmless policy err request rfl e called) t w

def samplePolicy : Policy := ⟨true, "0 3 * * *", "Asia/Shanghai", 2, 1, 10, 0⟩

def updatedPolicy : Policy := { samplePolicy with
  cronExpression := "15 4 * * *"
  maxConcurrency := 3 }

def sampleEnvironment : Environment where
  loadsLocation _ := true
  parses expression := expression ≠ "not a cron"
  fails n := if n = 3 then some "database is locked" else none
  clock n := n

def sampleWorld : World := ⟨samplePolicy, none, 0, samplePolicy, [], false, 0, 0⟩

theorem sampleWorld_fresh : Fresh sampleWorld := ⟨rfl, rfl⟩

/-- The operations side by side after `Start`, the last of the list as thread 0. -/
def beside (requests : List Request) : Configuration :=
  .crowd (run (exec sampleEnvironment 0) (start sampleEnvironment) sampleWorld).2
    (requests.map (thread sampleEnvironment))

theorem beside_reach {D : Discipline Eff Ans World Local (Except String Unit)}
    (ok : ∀ c th, D.start c th) (requests : List Request) :
    Reach (pool sampleEnvironment) D (afterStart sampleEnvironment sampleWorld)
      (beside requests) := by
  refine crowd_reach ok _ _ fun th there => ?_
  obtain ⟨request, -, rfl⟩ := List.mem_map.mp there
  exact ⟨request, rfl⟩

theorem beside_free (requests : List Request) (t : Nat) (h : requests.length ≤ t) :
    (beside requests).threads t = none :=
  crowd_free _ _ t (by rwa [List.length_map])

def playing (schedule : List Nat) (c : Configuration) : Option Configuration :=
  (pool sampleEnvironment).play (fun _ _ _ => true) schedule c

theorem played_reach {schedule : List Nat} {c c' : Configuration}
    (played : playing schedule c = some c') :
    Reach (pool sampleEnvironment) .uninterrupted c c' :=
  play_reach (fun _ _ _ _ => trivial) played

theorem one_live_schedule_in_turn :
    ∃ c : Configuration, OneSchedule c.world ∧ c.world.cron = some 2 ∧ ∃ l err,
      c.threads 0 = some ⟨.ret (.error err), l⟩ ∧ l.calls.length = 2 ∧
        ∀ e ∈ l.calls, Spares sampleEnvironment 0 e := by
  have played : (playing [2, 1, 0, 2, 1, 0, 2, 2, 2, 1, 1, 1, 1, 2]
      (beside [.update samplePolicy, .update updatedPolicy, .update updatedPolicy])).map
      (fun c => (c.world.cron, c.resting 3, c.outcome 0)) = some (some 2, true, some (.error "更新续签策略: database is locked",
          ⟨.update updatedPolicy, .built 3 (specOf updatedPolicy),
            [.updateRenewalPolicy updatedPolicy, .newCron (specOf updatedPolicy)]⟩)) := by
    decide +kernel
  obtain ⟨c, schedule, seen⟩ := Option.map_eq_some_iff.mp played
  simp only [Prod.mk.injEq] at seen
  obtain ⟨cron, ended, failed⟩ := seen
  have quiet : c.Quiet := quiet_of_resting (play_bounded (beside_free [_, _, _]) schedule) ended
  obtain ⟨one, spared⟩ := one_live_schedule sampleEnvironment sampleWorld_fresh
    ((beside_reach (fun _ _ => trivial) _).trans (played_reach schedule))
  have there := thread_of_outcome failed
  exact ⟨c, one quiet, cron, _, _, there, rfl, spared 0 _ _ _ there rfl⟩

end SchedulerRuns
