import CertMate.SchedulerController

/-!
# The runs of the scheduler

`RunNow`, the entry of a cron instance and `executeLocked` of
`internal/scheduler/controller.go`, beside `Start`, `Update` and `Stop`. The run lock is
taken by whoever starts a scan and given back by a deferred call; the counter of runs is
changed under the other mutex, before and after the runner.
-/
namespace ScanRuns
open CallTrees ThreadPools
open SchedulerController (Policy Instance)
open CertificateModel (Time)

/-- How a call of the runner ends. -/
inductive Outcome where
  | returned (err : Option String)
  | panicked
  deriving DecidableEq, Repr

/-- `fire` is the turn of an instance, `goExecute` the statement `go c.executeLocked()`;
`fatal` is the end of the process by a panic that nothing recovers. -/
inductive Eff where
  | controller (e : SchedulerController.Eff)
  | fire (instanceId : Nat)
  | tryLock
  | goExecute
  | enter
  | runner (policy : Policy)
  | now
  | leave (time : Time) (err : Option String)
  | unlock
  | fatal
  deriving DecidableEq, Repr

abbrev Ans : Eff → Type
  | .controller e => SchedulerController.Ans e
  | .tryLock => Bool
  | .enter => Policy
  | .runner _ => Outcome
  | .now => Time
  | _ => Unit

structure Environment where
  controller : SchedulerController.Environment
  outcome : Nat → Outcome
  clock : Nat → Time

/-- The history keeps how many runs have begun and how many have panicked. -/
structure World where
  controller : SchedulerController.World
  runMu : Bool
  active : Int
  lastRun : Option Time
  lastError : String
  scans : Nat
  panics : Nat
  readings : Nat
  dead : Bool

section Execution
variable (env : Environment)

/-- What is done under `mu` is one call. -/
def exec (thread : Nat) : (e : Eff) → World → Ans e × World
  | .controller e, w =>
    ((SchedulerController.exec env.controller thread e w.controller).1,
      { w with controller := (SchedulerController.exec env.controller thread e w.controller).2 })
  | .tryLock, w => if w.runMu then (false, w) else (true, { w with runMu := true })
  | .enter, w => (w.controller.policy, { w with active := w.active + 1 })
  | .runner _, w =>
    (env.outcome w.scans, { w with
      scans := w.scans + 1
      panics := if env.outcome w.scans = .panicked then w.panics + 1 else w.panics })
  | .now, w => (env.clock w.readings, { w with readings := w.readings + 1 })
  | .leave time err, w =>
    ((), { w with
      active := w.active - 1
      lastRun := some time
      lastError := err.getD "" })
  | .unlock, w => ((), { w with runMu := false })
  | .fatal, w => ((), { w with dead := true })
  | .fire _, w => ((), w)
  | .goExecute, w => ((), w)

abbrev Operation (α : Type) := Prog Eff Ans α

inductive Result where
  | done
  | answered (started : Bool)
  | configured (result : Except String Unit)
  | panicked
  deriving DecidableEq

/-- The result says whether the runner has returned. The lock is given back either way. -/
def executeLocked : Operation Bool := do
  let policy ← Prog.perform Eff.enter
  match ← Prog.perform (Eff.runner policy) with
  | .panicked =>
    Prog.perform Eff.unlock
    return false
  | .returned err =>
    let time ← Prog.perform Eff.now
    Prog.perform (Eff.leave time err)
    Prog.perform Eff.unlock
    return true

/-- The goroutine of `RunNow`. -/
def goroutine : Operation Result := do
  if ← executeLocked then return .done
  else
    Prog.perform Eff.fatal
    return .panicked

def runNow : Operation Result := do
  if ← Prog.perform Eff.tryLock then
    Prog.perform Eff.goExecute
    return .answered true
  else return .answered false

/-- The entry of an instance; `cron.Recover` keeps a panic from going further. -/
def job (instanceId : Nat) : Operation Result := do
  Prog.perform (Eff.fire instanceId)
  if ← Prog.perform Eff.tryLock then
    let _ ← executeLocked
    return .done
  else return .done

def configure (p : SchedulerController.Operation (Except String Unit)) : Operation Result :=
  p.lift (fun e => Prog.perform (Eff.controller e)) >>= fun r => .ret (.configured r)

inductive Request where
  | start
  | update (policy : Policy)
  | stop
  | runNow
  | tick (instanceId : Nat)
  deriving DecidableEq, Repr

def program : Request → Operation Result
  | .start => configure (SchedulerController.start env.controller)
  | .update policy => configure (SchedulerController.update env.controller policy)
  | .stop => configure SchedulerController.stop
  | .runNow => ScanRuns.runNow
  | .tick instanceId => job instanceId

/-- `locked` has the run lock, `running` is an invocation in progress; after a panic the
lock is still to be given back, and then there is nothing to hold on to. -/
inductive Phase where
  | idle
  | locked
  | running
  | ending
  | panicking
  | doomed
  deriving DecidableEq, Repr

/-- The phases with the run lock. -/
def Phase.busy : Phase → Bool
  | .locked | .running | .ending | .panicking => true
  | .idle | .doomed => false

abbrev Configuration := Config Eff Ans World Phase Result

def thread (request : Request) : Thread Eff Ans Phase Result := ⟨program env request, .idle⟩

/-- An instance that is started, not stopped and has an entry. -/
def fires (w : World) (instanceId : Nat) : Bool :=
  w.controller.instances[instanceId]?.any fun x => x.started && !x.stopped && x.spec.enabled

def note : Phase → (e : Eff) → Ans e → Phase
  | .idle, .tryLock, true => .locked
  | .locked, .goExecute, _ => .idle
  | .locked, .enter, _ => .running
  | .running, .runner _, .panicked => .panicking
  | .running, .leave _ _, _ => .ending
  | .ending, .unlock, _ => .idle
  | .panicking, .unlock, _ => .doomed
  | phase, _, _ => phase

/-- A new process has a new controller over the stored policy. -/
def restart (w : World) : World :=
  { w with
    controller := { w.controller with
      cron := none
      entryID := 0
      policy := ⟨false, "", "", 0, 0, 0, 0⟩
      instances := []
      cancelled := false }
    runMu := false
    active := 0
    lastRun := none
    lastError := ""
    panics := 0
    dead := false }

def pool : System Eff Ans World Phase Result where
  exec := exec env
  enabled _ e w := !w.dead &&
    match e with
    | .fire instanceId => fires w instanceId
    | _ => true
  note := note
  spawn _ e :=
    match e with
    | .goExecute => some ⟨goroutine, .locked⟩
    | _ => none
  starts th := ∃ request, th = thread env request
  restart := restart

end Execution

def allows : Phase → Eff → Prop
  | .idle, .controller _ | .idle, .fire _ | .idle, .tryLock => True
  | .locked, .goExecute | .locked, .enter => True
  | .running, .runner _ | .running, .now | .running, .leave _ _ => True
  | .ending, .unlock => True
  | .panicking, .unlock => True
  | .doomed, .fatal => True
  | _, _ => False

abbrev Keeps {α : Type} (p : Operation α) (phase : Phase) (Q : α → Phase → Prop) : Prop :=
  Follows (fun _ _ => True) allows note p phase Q

/-- At its end an operation has nothing to give back. -/
def Ends (_ : Result) (phase : Phase) : Prop := phase.busy = false

theorem executeLocked_keeps :
    Keeps executeLocked .locked fun returned phase =>
      phase = if returned then .idle else .doomed := by
  refine follows_call.mpr ⟨trivial, fun policy _ => follows_call.mpr ⟨trivial, fun outcome _ => ?_⟩⟩
  cases outcome with
  | panicked => exact follows_call.mpr ⟨trivial, fun _ _ => rfl⟩
  | returned err =>
    exact follows_call.mpr ⟨trivial, fun time _ => follows_call.mpr ⟨trivial, fun _ _ =>
      follows_call.mpr ⟨trivial, fun _ _ => rfl⟩⟩⟩

theorem goroutine_keeps : Keeps goroutine .locked Ends := by
  refine executeLocked_keeps.bind ?_
  rintro (_ | _) phase rfl
  · exact follows_call.mpr ⟨trivial, fun _ _ => rfl⟩
  · exact rfl

theorem runNow_keeps : Keeps runNow .idle Ends := by
  refine follows_call.mpr ⟨trivial, fun taken _ => ?_⟩
  cases taken with
  | false => exact rfl
  | true => exact follows_call.mpr ⟨trivial, fun _ _ => rfl⟩

theorem job_keeps (instanceId : Nat) : Keeps (job instanceId) .idle Ends := by
  refine follows_call.mpr ⟨trivial, fun _ _ => follows_call.mpr ⟨trivial, fun taken _ => ?_⟩⟩
  cases taken with
  | false => exact rfl
  | true =>
    refine executeLocked_keeps.bind ?_
    rintro (_ | _) phase rfl
    · exact rfl
    · exact rfl

theorem configure_keeps (p : SchedulerController.Operation (Except String Unit)) :
    Keeps (configure p) .idle Ends := by
  unfold configure
  induction p with
  | ret r => exact rfl
  | call e k ih => exact ⟨trivial, fun r _ => ih r⟩

theorem program_keeps (env : Environment) (request : Request) :
    Keeps (program env request) .idle Ends := by
  cases request with
  | start => exact configure_keeps _
  | update policy => exact configure_keeps _
  | stop => exact configure_keeps _
  | runNow => exact runNow_keeps
  | tick instanceId => exact job_keeps instanceId

/-- A thread that has called the runner or is about to, with the run counted. -/
def InProgress (c : Configuration) (t : Nat) : Prop :=
  ∃ th, c.threads t = some th ∧ th.seen = .running

/-- An invocation that the counter has counted. -/
def Phase.counted (phase : Phase) : Int := if phase = .running then 1 else 0

/-- The lock is free, or one thread has it. The counter counts the invocation of that
thread, and every panic there has been. -/
inductive Shape (c : Configuration) : Prop
  | free (lock : c.world.runMu = false)
      (calm : ∀ t th, c.threads t = some th → th.seen.busy = false)
      (count : c.world.active = c.world.panics)
  | held (t : Nat) (th : Thread Eff Ans Phase Result) (there : c.threads t = some th)
      (lock : c.world.runMu = true) (busy : th.seen.busy = true)
      (others : ∀ u th', u ≠ t → c.threads u = some th' → th'.seen.busy = false)
      (count : c.world.active = c.world.panics + th.seen.counted)

/-- The thread `t` alone has changed. -/
def Turned (c c' : Configuration) (t : Nat) (th : Thread Eff Ans Phase Result) : Prop :=
  c'.threads = Function.update c.threads t (some th)

section Shape
variable {c c' : Configuration} {t : Nat} {th th' : Thread Eff Ans Phase Result}

theorem Turned.own (h : Turned c c' t th) : c'.threads t = some th := by
  rw [h, Function.update_self]

theorem Turned.other (h : Turned c c' t th) {u : Nat} (away : u ≠ t) :
    c'.threads u = c.threads u := by
  rw [h, Function.update_of_ne away]

/-- A thread without the lock that takes nothing. -/
theorem Shape.quiet (h : Shape c) (turned : Turned c c' t th')
    (before : ∀ th, c.threads t = some th → th.seen.busy = false) (after : th'.seen.busy = false)
    (lock : c'.world.runMu = c.world.runMu) (active : c'.world.active = c.world.active)
    (panics : c'.world.panics = c.world.panics) : Shape c' := by
  cases h with
  | free free calm count =>
    refine .free (lock.trans free) (fun u thu there => ?_) (by rw [active, panics, count])
    by_cases own : u = t
    · subst own
      rw [turned.own] at there
      cases there
      exact after
    · rw [turned.other own] at there
      exact calm u thu there
  | held v thv there taken busy others count =>
    have away : v ≠ t := by
      rintro rfl
      rw [before thv there] at busy
      cases busy
    refine .held v thv ((turned.other away).trans there) (lock.trans taken) busy ?_
      (by rw [active, panics, count])
    intro u thu other there'
    by_cases own : u = t
    · subst own
      rw [turned.own] at there'
      cases there'
      exact after
    · rw [turned.other own] at there'
      exact others u thu other there'

/-- The lock goes to a thread. -/
theorem Shape.take (h : Shape c) (turned : Turned c c' t th') (open_ : c.world.runMu = false)
    (after : th'.seen = .locked) (lock : c'.world.runMu = true)
    (active : c'.world.active = c.world.active) (panics : c'.world.panics = c.world.panics) :
    Shape c' := by
  cases h with
  | free free calm count =>
    refine .held t th' turned.own lock (by rw [after]; rfl) ?_ ?_
    · intro u thu other there
      rw [turned.other other] at there
      exact calm u thu there
    · rw [active, panics, count, after]
      rfl
  | held v thv there taken busy others count =>
    rw [open_] at taken
    cases taken

/-- The thread with the lock is the one that is busy. -/
theorem Shape.holder (h : Shape c) (there : c.threads t = some th) (busy : th.seen.busy = true) :
    c.world.runMu = true ∧ (∀ u th', u ≠ t → c.threads u = some th' → th'.seen.busy = false) ∧
      c.world.active = c.world.panics + th.seen.counted := by
  cases h with
  | free free calm count =>
    rw [calm t th there] at busy
    cases busy
  | held v thv there' taken busy' others count =>
    have same : v = t := by
      by_contra other
      rw [others t th (fun h => other h.symm) there] at busy
      cases busy
    subst same
    rw [there'] at there
    cases there
    exact ⟨taken, others, count⟩

/-- A thread goes on with the lock. -/
theorem Shape.keep (h : Shape c) (turned : Turned c c' t th') (there : c.threads t = some th)
    (busy : th.seen.busy = true) (after : th'.seen.busy = true)
    (lock : c'.world.runMu = c.world.runMu)
    (count : c'.world.active - c'.world.panics - th'.seen.counted =
      c.world.active - c.world.panics - th.seen.counted) : Shape c' := by
  obtain ⟨taken, others, counted⟩ := h.holder there busy
  refine .held t th' turned.own (lock.trans taken) after ?_ (by omega)
  intro u thu other there'
  rw [turned.other other] at there'
  exact others u thu other there'

/-- A thread gives the lock back. -/
theorem Shape.drop (h : Shape c) (turned : Turned c c' t th') (there : c.threads t = some th)
    (busy : th.seen.busy = true) (left : th.seen ≠ .running) (after : th'.seen.busy = false)
    (lock : c'.world.runMu = false) (active : c'.world.active = c.world.active)
    (panics : c'.world.panics = c.world.panics) : Shape c' := by
  obtain ⟨-, others, counted⟩ := h.holder there busy
  refine .free lock (fun u thu there' => ?_) ?_
  · by_cases own : u = t
    · subst own
      rw [turned.own] at there'
      cases there'
      exact after
    · rw [turned.other own] at there'
      exact others u thu own there'
  · rw [active, panics, counted, Phase.counted, if_neg left, Int.add_zero]

end Shape

section Calls
variable {env : Environment} {c : Configuration} {t : Nat} {e : Eff}
  {k : Ans e → Operation Result} {phase : Phase}

theorem turned_after : Turned c ((pool env).after c t e k phase) t
    ⟨k (exec env t e c.world).1, note phase e (exec env t e c.world).1⟩ := rfl

/-- The lock is taken if it is free. -/
theorem shape_tryLock {k : Bool → Operation Result} (h : Shape c)
    (running : c.threads t = some ⟨.call .tryLock k, .idle⟩) :
    Shape ((pool env).after c t .tryLock k .idle) := by
  cases lock : c.world.runMu with
  | false =>
    have taken : exec env t .tryLock c.world = (true, { c.world with runMu := true }) := by
      simp [exec, lock]
    apply h.take turned_after lock
    · rw [taken]
      rfl
    · change (exec env t .tryLock c.world).2.runMu = true
      rw [taken]
    · change (exec env t .tryLock c.world).2.active = _
      rw [taken]
    · change (exec env t .tryLock c.world).2.panics = _
      rw [taken]
  | true =>
    have refused : exec env t .tryLock c.world = (false, c.world) := by simp [exec, lock]
    have same : ((pool env).after c t .tryLock k .idle).world = c.world := congrArg Prod.snd refused
    apply h.quiet turned_after
    · intro th there
      rw [running] at there
      cases there
      rfl
    · rw [refused]
      rfl
    · rw [same]
    · rw [same]
    · rw [same]

/-- One call of a thread that does not start another. -/
theorem shape_call (h : Shape c) (running : c.threads t = some ⟨.call e k, phase⟩)
    (allowed : allows phase e) (alone : e ≠ .goExecute) :
    Shape ((pool env).after c t e k phase) := by
  have idle : phase.busy = false → ∀ th, c.threads t = some th → th.seen.busy = false := by
    intro free th there
    rw [running] at there
    cases there
    exact free
  cases phase with
  | idle =>
    cases e with
    | controller e => exact h.quiet turned_after (idle rfl) rfl rfl rfl rfl
    | fire i => exact h.quiet turned_after (idle rfl) rfl rfl rfl rfl
    | tryLock => exact shape_tryLock h running
    | _ => cases allowed
  | locked =>
    cases e with
    | goExecute => exact absurd rfl alone
    | enter =>
      refine h.keep turned_after running rfl rfl rfl ?_
      change c.world.active + 1 - c.world.panics - 1 = c.world.active - c.world.panics - 0
      omega
    | _ => cases allowed
  | running =>
    cases e with
    | runner policy =>
      cases ended : env.outcome c.world.scans with
      | returned err =>
        have answer : (exec env t (.runner policy) c.world).1 = .returned err := ended
        have panics : (exec env t (.runner policy) c.world).2.panics = c.world.panics := by
          simp [exec, ended]
        refine h.keep turned_after running rfl ?_ rfl ?_
        · rw [answer]
          rfl
        · rw [answer]
          change c.world.active - ((exec env t (.runner policy) c.world).2.panics : Int) - 1 = _
          rw [panics]
          rfl
      | panicked =>
        have answer : (exec env t (.runner policy) c.world).1 = .panicked := ended
        have panics : (exec env t (.runner policy) c.world).2.panics = c.world.panics + 1 := by
          simp [exec, ended]
        refine h.keep turned_after running rfl ?_ rfl ?_
        · rw [answer]
          rfl
        · rw [answer]
          change c.world.active - ((exec env t (.runner policy) c.world).2.panics : Int) - 0 =
            c.world.active - c.world.panics - 1
          rw [panics]
          omega
    | now => exact h.keep turned_after running rfl rfl rfl rfl
    | leave time err =>
      refine h.keep turned_after running rfl rfl rfl ?_
      change c.world.active - 1 - c.world.panics - 0 = c.world.active - c.world.panics - 1
      omega
    | _ => cases allowed
  | ending =>
    cases e with
    | unlock => exact h.drop turned_after running rfl (fun h => nomatch h) rfl rfl rfl rfl
    | _ => cases allowed
  | panicking =>
    cases e with
    | unlock => exact h.drop turned_after running rfl (fun h => nomatch h) rfl rfl rfl rfl
    | _ => cases allowed
  | doomed =>
    cases e with
    | fatal => exact h.quiet turned_after (idle rfl) rfl rfl rfl rfl
    | _ => cases allowed

/-- The new goroutine has the lock of the thread that has started it. -/
theorem shape_spawn {k : Unit → Operation Result} (h : Shape c)
    (running : c.threads t = some ⟨.call .goExecute k, phase⟩)
    (allowed : allows phase .goExecute) {u : Nat} (free : c.threads u = none) :
    Shape (((pool env).after c t .goExecute k phase).set u (some ⟨goroutine, .locked⟩)) := by
  cases phase with
  | locked =>
    obtain ⟨taken, others, counted⟩ := h.holder running rfl
    have away : u ≠ t := by
      rintro rfl
      rw [running] at free
      cases free
    refine .held u _ (Config.set_self _ _ _) taken rfl ?_ counted
    intro v thv other there
    rw [Config.set_other _ _ other] at there
    by_cases own : v = t
    · subst own
      rw [turned_after.own] at there
      cases there
      rfl
    · rw [turned_after.other own] at there
      exact others v thv own there
  | _ => cases allowed

/-- A thread without the lock comes or goes. -/
theorem Shape.set (h : Shape c) {o : Option (Thread Eff Ans Phase Result)}
    (before : ∀ th, c.threads t = some th → th.seen.busy = false)
    (after : ∀ th, o = some th → th.seen.busy = false) : Shape (c.set t o) := by
  have calm : ∀ u th, (∀ th', c.threads u = some th' → th'.seen.busy = false) →
      (c.set t o).threads u = some th → th.seen.busy = false := by
    intro u th old there
    by_cases own : u = t
    · subst own
      rw [Config.set_self] at there
      exact after th there
    · rw [Config.set_other _ _ own] at there
      exact old th there
  cases h with
  | free free all count => exact .free free (fun u th => calm u th (all u)) count
  | held v thv there taken busy others count =>
    have away : v ≠ t := by
      rintro rfl
      rw [before thv there] at busy
      cases busy
    refine .held v thv ((Config.set_other _ _ away).trans there) taken busy ?_ count
    exact fun u th other => calm u th fun th' => others u th' other

end Calls

section Sound
variable (env : Environment)

abbrev Protocol : Assertion Eff Ans World Phase Result :=
  conforming (pool env) (fun _ _ => True) allows Ends

/-- A process that ends, or a thread that makes it end, has seen a panic. -/
def alarm : Assertion Eff Ans World Phase Result where
  world w := w.dead = true → 0 < w.panics
  thread _ th w := th.seen = .panicking ∨ th.seen = .doomed → 0 < w.panics

structure Sound (c : Configuration) : Prop where
  protocol : (Protocol env).Holds c
  shape : Shape c
  alarm : alarm.Holds c
  finite : c.Finite

variable {env} {D : Discipline Eff Ans World Phase Result}

theorem protocol_stable : (Protocol env).Stable (pool env) D fun _ => True := by
  refine conforming_stable (fun _ _ _ => trivial) ?_ ?_
  · rintro th ⟨request, rfl⟩
    exact program_keeps env request
  · intro t e th child
    cases e with
    | goExecute =>
      cases child
      exact goroutine_keeps
    | _ => cases child

theorem exec_panics (t : Nat) (e : Eff) (w : World) : w.panics ≤ (exec env t e w).2.panics := by
  cases e with
  | runner policy =>
    simp only [exec]
    split
    · omega
    · omega
  | tryLock =>
    simp only [exec]
    split
    · exact Nat.le_refl _
    · exact Nat.le_refl _
  | _ => exact Nat.le_refl _

theorem exec_dead {e : Eff} (alive : e ≠ .fatal) (t : Nat) (w : World) :
    (exec env t e w).2.dead = w.dead := by
  cases e with
  | fatal => exact absurd rfl alive
  | tryLock =>
    simp only [exec]
    split
    · rfl
    · rfl
  | _ => rfl

/-- A thread comes to its panic by a call of the runner that panics. -/
theorem note_alarm {phase : Phase} {e : Eff} {r : Ans e} (allowed : allows phase e)
    (seen : note phase e r = .panicking ∨ note phase e r = .doomed) :
    (phase = .panicking ∨ phase = .doomed) ∨
      ∃ policy, e = .runner policy ∧ HEq r Outcome.panicked := by
  cases phase with
  | idle =>
    cases e with
    | controller e => rcases seen with h | h <;> cases h
    | fire i => rcases seen with h | h <;> cases h
    | tryLock =>
      cases r with
      | false => rcases seen with h | h <;> cases h
      | true => rcases seen with h | h <;> cases h
    | _ => cases allowed
  | locked =>
    cases e with
    | goExecute => rcases seen with h | h <;> cases h
    | enter => rcases seen with h | h <;> cases h
    | _ => cases allowed
  | running =>
    cases e with
    | runner policy =>
      cases r with
      | returned err => rcases seen with h | h <;> cases h
      | panicked => exact .inr ⟨policy, rfl, HEq.rfl⟩
    | now => rcases seen with h | h <;> cases h
    | leave time err => rcases seen with h | h <;> cases h
    | _ => cases allowed
  | ending =>
    cases e with
    | unlock => rcases seen with h | h <;> cases h
    | _ => cases allowed
  | panicking => exact .inl (.inl rfl)
  | doomed => exact .inl (.inr rfl)

theorem alarm_stable : alarm.Stable (pool env) D (Protocol env).Holds where
  own c t e k phase known holds running _ _ := by
    have allowed := allowed_of_conforming known running
    have more : c.world.panics ≤ (exec env t e c.world).2.panics := exec_panics t e c.world
    constructor
    · intro dead
      by_cases fatal : e = .fatal
      · subst fatal
        have seen : phase = .doomed := by
          cases phase with
          | doomed => rfl
          | _ => cases allowed
        have old : 0 < c.world.panics := holds.thread t _ running (.inr seen)
        exact Nat.lt_of_lt_of_le old more
      · have old : 0 < c.world.panics := holds.world ((exec_dead fatal t c.world).symm.trans dead)
        exact Nat.lt_of_lt_of_le old more
    · intro seen
      rcases note_alarm allowed seen with before | ⟨policy, rfl, panicked⟩
      · have old : 0 < c.world.panics := holds.thread t _ running before
        exact Nat.lt_of_lt_of_le old more
      · have ended : env.outcome c.world.scans = .panicked := eq_of_heq panicked
        simp [pool, exec, ended]
  other c t e k phase u th _ holds _ _ _ _ there seen := by
    have more : c.world.panics ≤ (exec env t e c.world).2.panics := exec_panics t e c.world
    have old := holds.thread u th there seen
    exact Nat.lt_of_lt_of_le old more
  start c t th _ _ _ starts _ seen := by
    obtain ⟨request, rfl⟩ := starts
    rcases seen with seen | seen
    · cases seen
    · cases seen
  spawn c t e k phase u child _ _ _ spawned _ _ seen := by
    cases e with
    | goExecute =>
      cases spawned
      rcases seen with seen | seen
      · cases seen
      · cases seen
    | _ => cases spawned
  crash _ _ _ _ dead := by cases dead

theorem shape_step {c c' : Configuration} (sound : Sound env c) (hs : Step (pool env) D c c') :
    Shape c' := by
  cases hs with
  | start free starts ok =>
    obtain ⟨request, rfl⟩ := starts
    apply sound.shape.set
    · intro th there
      rw [free] at there
      cases there
    · intro th there
      cases there
      rfl
  | call running enabled alone ok =>
    refine shape_call sound.shape running (allowed_of_conforming sound.protocol running) ?_
    rintro rfl
    cases alone
  | @spawn t u e k phase th running enabled child free ok =>
    cases e with
    | goExecute =>
      cases child
      exact shape_spawn sound.shape running (allowed_of_conforming sound.protocol running) free
    | _ => cases child
  | finish running =>
    apply sound.shape.set
    · intro th there
      rw [running] at there
      cases there
      exact sound.protocol.thread _ _ running
    · intro th there
      cases there
  | crash ok => exact .free rfl (fun _ _ there => nomatch there) rfl

theorem sound_step {c c' : Configuration} (sound : Sound env c) (hs : Step (pool env) D c c') :
    Sound env c' where
  protocol := protocol_stable.step trivial sound.protocol hs
  shape := shape_step sound hs
  alarm := alarm_stable.step sound.protocol sound.alarm hs
  finite := hs.finite (pool env) D sound.finite

/-- A process that has just come up. -/
def fresh (w : World) : Configuration := ⟨fun _ => none, restart w⟩

theorem fresh_sound (w : World) : Sound env (fresh w) where
  protocol := ⟨trivial, fun _ _ there => nomatch there⟩
  shape := .free rfl (fun _ _ there => nomatch there) rfl
  alarm := ⟨fun dead => (nomatch dead), fun _ _ there => nomatch there⟩
  finite := ⟨0, fun _ _ => rfl⟩

theorem sound_reach {c c' : Configuration} (run : Reach (pool env) D c c') (sound : Sound env c) :
    Sound env c' :=
  run.invariant (pool env) D (fun _ _ => sound_step) sound

end Sound

section Release
variable {env : Environment}

/-- The phases from the call of the runner on. -/
def Phase.begun : Phase → Bool
  | .running | .ending | .panicking => true
  | .idle | .locked | .doomed => false

/-- A run of the process to where the lock is free, past which `V` is as it was. -/
structure Frees (env : Environment) (V : Nat → Prop) (c c' : Configuration) : Prop where
  run : Reach (pool env) .uninterrupted c c'
  sound : Sound env c'
  lock : c'.world.runMu = false
  dead : c'.world.dead = false
  kept : ∀ u, V u → c'.threads u = c.threads u

theorem Frees.after {V W : Nat → Prop} {c c₁ c' : Configuration} (h : Frees env V c₁ c')
    (run : Reach (pool env) .uninterrupted c c₁) (wider : ∀ u, W u → V u)
    (kept : ∀ u, W u → c₁.threads u = c.threads u) : Frees env W c c' where
  run := run.trans h.run
  sound := h.sound
  lock := h.lock
  dead := h.dead
  kept u hu := (h.kept u (wider u hu)).trans (kept u hu)

theorem begun_call (env : Environment) {phase : Phase} {e : Eff} (begun : phase.begun = true)
    (allowed : allows phase e) (t : Nat) :
    (∀ w, (pool env).enabled t e w = !w.dead) ∧ (pool env).spawn t e = none ∧ e ≠ .fatal := by
  have plain : (∀ i, e ≠ .fire i) ∧ e ≠ .goExecute ∧ e ≠ .fatal := by
    refine ⟨?_, ?_, ?_⟩
    · rintro i rfl
      cases phase <;> cases begun <;> cases allowed
    · rintro rfl
      cases phase <;> cases begun <;> cases allowed
    · rintro rfl
      cases phase <;> cases begun <;> cases allowed
  cases e with
  | fire i => exact absurd rfl (plain.1 i)
  | goExecute => exact absurd rfl plain.2.1
  | _ => exact ⟨fun w => Bool.and_true _, rfl, plain.2.2⟩

theorem begun_note {phase : Phase} {e : Eff} (begun : phase.begun = true)
    (allowed : allows phase e) (locked : e ≠ .unlock) (r : Ans e) :
    (note phase e r).begun = true := by
  cases phase with
  | running =>
    cases e with
    | runner policy => cases r <;> rfl
    | now => rfl
    | leave time err => rfl
    | _ => cases allowed
  | ending =>
    cases e with
    | unlock => exact absurd rfl locked
    | _ => cases allowed
  | panicking =>
    cases e with
    | unlock => exact absurd rfl locked
    | _ => cases allowed
  | _ => cases begun

/-- A call that can be made. -/
theorem called (env : Environment) {c : Configuration} {t : Nat} {e : Eff}
    {k : Ans e → Operation Result}
    {phase : Phase} (there : c.threads t = some ⟨.call e k, phase⟩)
    (enabled : (pool env).enabled t e c.world = true) (alone : (pool env).spawn t e = none) :
    Reach (pool env) .uninterrupted c ((pool env).after c t e k phase) :=
  .single (.call there enabled alone trivial)

/-- An invocation comes to its end, by induction on what is left of the program. -/
theorem frees_begun (p : Operation Result) {c : Configuration} {t : Nat} {phase : Phase}
    (sound : Sound env c) (alive : c.world.dead = false)
    (there : c.threads t = some ⟨p, phase⟩) (begun : phase.begun = true) :
    ∃ c', Frees env (· ≠ t) c c' := by
  induction p generalizing c phase with
  | ret a =>
    have ended : phase.busy = false := sound.protocol.thread t _ there
    cases phase with
    | running => cases ended
    | ending => cases ended
    | panicking => cases ended
    | _ => cases begun
  | call e k ih =>
    have allowed := allowed_of_conforming sound.protocol there
    obtain ⟨enabled, alone, mortal⟩ := begun_call env begun allowed t
    have run := called env there ((enabled c.world).trans (by rw [alive]; rfl)) alone
    have sound' := sound_reach run sound
    have alive' : ((pool env).after c t e k phase).world.dead = false :=
      (exec_dead mortal t c.world).trans alive
    have kept : ∀ u, u ≠ t → ((pool env).after c t e k phase).threads u = c.threads u :=
      fun u other => Function.update_of_ne other _ _
    by_cases unlocked : e = .unlock
    · subst unlocked
      exact ⟨_, run, sound', rfl, alive', kept⟩
    · obtain ⟨c', frees⟩ :=
        ih _ sound' alive' (after_self _ c t e k phase) (begun_note begun allowed unlocked _)
      exact ⟨c', frees.after run (fun _ other => other) kept⟩

theorem frees_enter {c : Configuration} {t : Nat} {k : Policy → Operation Result}
    (sound : Sound env c) (alive : c.world.dead = false)
    (there : c.threads t = some ⟨.call .enter k, .locked⟩) : ∃ c', Frees env (· ≠ t) c c' := by
  have run := called env there (by simp [pool, alive]) rfl
  obtain ⟨c', frees⟩ :=
    frees_begun _ (sound_reach run sound) alive (after_self _ c t .enter k .locked) rfl
  exact ⟨c', frees.after run (fun _ other => other) fun u other => Function.update_of_ne other _ _⟩

/-- Who has the lock makes the call itself or leaves it to a new goroutine. -/
theorem frees_locked {c : Configuration} {t v : Nat} {p : Operation Result} (other : v ≠ t)
    (sound : Sound env c) (alive : c.world.dead = false)
    (there : c.threads t = some ⟨p, .locked⟩) : ∃ c', Frees env (· = v) c c' := by
  cases p with
  | ret a =>
    have ended : Phase.locked.busy = false := sound.protocol.thread t _ there
    cases ended
  | call e k =>
    have allowed := allowed_of_conforming sound.protocol there
    cases e with
    | enter =>
      obtain ⟨c', frees⟩ := frees_enter sound alive there
      refine ⟨c', frees.after .refl ?_ fun _ _ => rfl⟩
      rintro u rfl
      exact other
    | goExecute =>
      obtain ⟨u, away, free⟩ := sound.finite.room v
      have spawned : Step (pool env) .uninterrupted c
          (((pool env).after c t .goExecute k .locked).set u (some ⟨goroutine, .locked⟩)) :=
        .spawn there (by simp [pool, alive]) rfl free trivial
      obtain ⟨c', frees⟩ :=
        frees_enter (sound_step sound spawned) alive (Config.set_self _ u _)
      refine ⟨c', frees.after (.single spawned) ?_ ?_⟩
      · rintro x rfl
        exact away.symm
      · rintro x rfl
        rw [Config.set_other _ _ away.symm]
        exact Function.update_of_ne other _ _
    | _ => cases allowed

/-- Whoever has the lock, it can come back without a turn of `v`. -/
theorem frees {c : Configuration} {v : Nat} (sound : Sound env c) (alive : c.world.dead = false)
    (outside : ∀ th, c.threads v = some th → th.seen.busy = false) :
    ∃ c', Frees env (· = v) c c' := by
  cases sound.shape with
  | free lock calm count => exact ⟨c, .refl, sound, lock, alive, fun _ _ => rfl⟩
  | held t th there lock busy others count =>
    have other : v ≠ t := by
      rintro rfl
      rw [outside th there] at busy
      cases busy
    have narrower : ∀ u, u = v → u ≠ t := by
      rintro u rfl
      exact other
    obtain ⟨p, phase⟩ := th
    cases phase with
    | locked => exact frees_locked other sound alive there
    | running =>
      obtain ⟨c', frees⟩ := frees_begun p sound alive there rfl
      exact ⟨c', frees.after .refl narrower fun _ _ => rfl⟩
    | ending =>
      obtain ⟨c', frees⟩ := frees_begun p sound alive there rfl
      exact ⟨c', frees.after .refl narrower fun _ _ => rfl⟩
    | panicking =>
      obtain ⟨c', frees⟩ := frees_begun p sound alive there rfl
      exact ⟨c', frees.after .refl narrower fun _ _ => rfl⟩
    | _ => cases busy

end Release

section Counter
variable (env : Environment)

/-- A new `RunNow`, or the turn of a live instance, comes to an invocation of its own. -/
structure CanStart (c : Configuration) : Prop where
  runNow : ∀ v, c.threads v = none → ∃ c' u,
    Reach (pool env) .uninterrupted (c.set v (some (thread env .runNow))) c' ∧
      c'.outcome v = some (.answered true, .idle) ∧ InProgress c' u
  tick : ∀ v instanceId, c.threads v = none → fires c.world instanceId = true → ∃ c',
    Reach (pool env) .uninterrupted (c.set v (some (thread env (.tick instanceId)))) c' ∧
      InProgress c' v

/-- `ActiveRuns` is the number of invocations in progress, of which there is at most one. -/
structure Exact (c : Configuration) : Prop where
  count : c.world.active = Set.ncard {t | InProgress c t}
  single : ∀ t u, InProgress c t → InProgress c u → t = u
  ready : (∀ t, ¬ InProgress c t) → CanStart env c

variable {env} {c : Configuration}

theorem busy_of_inProgress {t : Nat} (h : InProgress c t) :
    ∃ th, c.threads t = some th ∧ th.seen.busy = true := by
  obtain ⟨th, there, running⟩ := h
  exact ⟨th, there, by rw [running]; rfl⟩

theorem single_of_shape (h : Shape c) {t u : Nat} (ht : InProgress c t) (hu : InProgress c u) :
    t = u := by
  obtain ⟨th, there, busy⟩ := busy_of_inProgress ht
  obtain ⟨th', there', busy'⟩ := busy_of_inProgress hu
  by_contra other
  rw [(h.holder there busy).2.1 u th' (fun same => other same.symm) there'] at busy'
  cases busy'

theorem none_of_unlocked (h : Shape c) (lock : c.world.runMu = false) (t : Nat) :
    ¬ InProgress c t := by
  intro ht
  obtain ⟨th, there, busy⟩ := busy_of_inProgress ht
  rw [(h.holder there busy).1] at lock
  cases lock

/-- The counter counts the invocations in progress and those that have panicked. -/
theorem active_of_shape (h : Shape c) :
    c.world.active = c.world.panics + Set.ncard {t | InProgress c t} := by
  cases h with
  | free free calm count =>
    have none : {t | InProgress c t} = ∅ := by
      refine Set.eq_empty_of_forall_notMem fun t ht => ?_
      obtain ⟨th, there, busy⟩ := busy_of_inProgress ht
      rw [calm t th there] at busy
      cases busy
    rw [none, Set.ncard_empty, count]
    rfl
  | held t th there lock busy others count =>
    have only : ∀ u, InProgress c u → u = t := fun u hu =>
      by_contra fun other => by
        obtain ⟨th', there', busy'⟩ := busy_of_inProgress hu
        rw [others u th' other there'] at busy'
        cases busy'
    by_cases running : th.seen = .running
    · have one : {t | InProgress c t} = {t} := by
        refine Set.eq_singleton_iff_unique_mem.mpr ⟨⟨th, there, running⟩, fun u hu => only u hu⟩
      rw [one, Set.ncard_singleton, count, Phase.counted, if_pos running]
      rfl
    · have none : {t | InProgress c t} = ∅ := by
        refine Set.eq_empty_of_forall_notMem fun u hu => running ?_
        have same := only u hu
        subst same
        obtain ⟨th', there', running'⟩ := hu
        rw [there] at there'
        cases there'
        exact running'
      rw [none, Set.ncard_empty, count, Phase.counted, if_neg running]
      rfl

theorem started {v : Nat} {request : Request} (free : c.threads v = none) :
    Reach (pool env) .uninterrupted c (c.set v (some (thread env request))) :=
  .single (.start free ⟨request, rfl⟩ trivial)

/-- The thread `v` takes the free lock. -/
theorem taken (env : Environment) {v : Nat} {k : Bool → Operation Result}
    (lock : c.world.runMu = false) (alive : c.world.dead = false)
    (there : c.threads v = some ⟨.call .tryLock k, .idle⟩) :
    ∃ c', Reach (pool env) .uninterrupted c c' ∧ c'.threads v = some ⟨k true, .locked⟩ ∧
      c'.world.dead = false ∧ (c.Finite → c'.Finite) := by
  have answer : exec env v .tryLock c.world = (true, { c.world with runMu := true }) := by
    simp [exec, lock]
  have run := called env there (by simp [pool, alive]) rfl
  refine ⟨_, run, ?_, ?_, fun h => h.set v (some ⟨_, _⟩)⟩
  · refine (after_self _ c v .tryLock k .idle).trans ?_
    simp [pool, answer, note]
  · exact (exec_dead (e := .tryLock) (by simp) v c.world).trans alive

theorem entered (env : Environment) {v : Nat} {k : Policy → Operation Result}
    (alive : c.world.dead = false)
    (there : c.threads v = some ⟨.call .enter k, .locked⟩) :
    Reach (pool env) .uninterrupted c ((pool env).after c v .enter k .locked) ∧
      InProgress ((pool env).after c v .enter k .locked) v :=
  ⟨called env there (by simp [pool, alive]) rfl, _, after_self _ c v .enter k .locked, rfl⟩

theorem runNow_starts (sound : Sound env c) (alive : c.world.dead = false) {v : Nat}
    (free : c.threads v = none) : ∃ c' u,
      Reach (pool env) .uninterrupted (c.set v (some (thread env .runNow))) c' ∧
        c'.outcome v = some (.answered true, .idle) ∧ InProgress c' u := by
  have sound₀ : Sound env (c.set v (some (thread env .runNow))) := sound_reach (started free) sound
  have own := Config.set_self c v (some (thread env .runNow))
  obtain ⟨c₁, freed⟩ := frees (v := v) sound₀ alive fun th there => by
    rw [own] at there
    cases there
    rfl
  obtain ⟨c₂, run₂, own₂, alive₂, finite⟩ :=
    taken env freed.lock freed.dead ((freed.kept v rfl).trans own)
  obtain ⟨u, away, free'⟩ := (finite freed.sound.finite).room v
  have spawned : Step (pool env) .uninterrupted c₂
      (((pool env).after c₂ v .goExecute (fun _ => .ret (.answered true)) .locked).set u
        (some ⟨goroutine, .locked⟩)) :=
    .spawn own₂ (by simp [pool, alive₂]) rfl free' trivial
  obtain ⟨run₃, inProgress⟩ := entered env (v := u) (c :=
    ((pool env).after c₂ v .goExecute (fun _ => .ret (.answered true)) .locked).set u
      (some ⟨goroutine, .locked⟩)) alive₂ (Config.set_self _ u _)
  refine ⟨_, u, ((freed.run.trans run₂).tail spawned).trans run₃, ?_, inProgress⟩
  have kept : (((pool env).after c₂ v .goExecute (fun _ => .ret (.answered true)) .locked).set u
      (some ⟨goroutine, .locked⟩)).threads v = some ⟨.ret (.answered true), .idle⟩ :=
    (Config.set_other _ _ away.symm).trans (after_self _ c₂ v .goExecute _ .locked)
  exact outcome_of_thread ((Function.update_of_ne away.symm _ _).trans kept)

/-- An instance has its turn and comes to the lock. -/
theorem fired (env : Environment) {v instanceId : Nat} (alive : c.world.dead = false)
    (live : fires c.world instanceId = true)
    (own : c.threads v = some (thread env (.tick instanceId))) : ∃ c',
      Reach (pool env) .uninterrupted c c' ∧ c'.world.dead = false ∧
        c'.threads v = some ⟨.call .tryLock fun taken =>
          if taken then executeLocked >>= fun _ => .ret .done else .ret .done, .idle⟩ :=
  ⟨_, called env own (by simp [pool, alive, live]) rfl, alive, after_self _ c v _ _ _⟩

theorem tick_starts (sound : Sound env c) (alive : c.world.dead = false) {v instanceId : Nat}
    (free : c.threads v = none) (live : fires c.world instanceId = true) : ∃ c',
      Reach (pool env) .uninterrupted (c.set v (some (thread env (.tick instanceId)))) c' ∧
        InProgress c' v := by
  obtain ⟨c₁, run₁, alive₁, own₁⟩ :=
    fired env (c := c.set v _) alive live (Config.set_self c v _)
  have sound₁ := sound_reach ((started free).trans run₁) sound
  obtain ⟨c₂, freed⟩ := frees (v := v) sound₁ alive₁ fun th there => by
    rw [own₁] at there
    cases there
    rfl
  obtain ⟨c₃, run₃, own₃, alive₃, -⟩ :=
    taken env freed.lock freed.dead ((freed.kept v rfl).trans own₁)
  obtain ⟨run₄, inProgress⟩ := entered env alive₃ own₃
  exact ⟨_, ((run₁.trans freed.run).trans run₃).trans run₄, inProgress⟩

/-- The counter is exact as long as no invocation has panicked. -/
theorem exact_iff (sound : Sound env c) : Exact env c ↔ c.world.panics = 0 := by
  have counted := active_of_shape sound.shape
  constructor
  · intro h
    have count := h.count
    omega
  · intro calm
    refine ⟨by omega, fun t u => single_of_shape sound.shape, fun _ => ?_⟩
    have alive : c.world.dead = false := by
      cases dead : c.world.dead with
      | false => rfl
      | true =>
        have panicked : 0 < c.world.panics := sound.alarm.world dead
        omega
    exact ⟨fun v free => runNow_starts sound alive free,
      fun v instanceId free live => tick_starts sound alive free live⟩

/-- The runner is called only where it does not panic. -/
def Calm (env : Environment) (D : Discipline Eff Ans World Phase Result) : Prop :=
  ∀ c t policy, D.call c t (.runner policy) → env.outcome c.world.scans ≠ .panicked

theorem calm_step {D : Discipline Eff Ans World Phase Result} (calm : Calm env D)
    {c c' : Configuration} (none : c.world.panics = 0) (hs : Step (pool env) D c c') :
    c'.world.panics = 0 := by
  have kept : ∀ t e, D.call c t e → (exec env t e c.world).2.panics = 0 := by
    intro t e ok
    cases e with
    | runner policy => simp [exec, calm c t policy ok, none]
    | tryLock =>
      simp only [exec]
      split
      · exact none
      · exact none
    | _ => exact none
  cases hs with
  | start free starts ok => exact none
  | call running enabled alone ok => exact kept _ _ ok
  | spawn running enabled child free ok => exact kept _ _ ok
  | finish running => exact none
  | crash ok => rfl

end Counter

section Claim
variable (env : Environment)

/-- A state of a run shows the number of invocations in progress exactly if none has panicked
since the process came up; a run in which none panics shows it throughout. -/
theorem activeRuns_exact_iff {D : Discipline Eff Ans World Phase Result} {w : World}
    {c : Configuration} (run : Reach (pool env) D (fresh w) c) :
    (Exact env c ↔ c.world.panics = 0) ∧ (Calm env D → Exact env c) := by
  have exact_iff := exact_iff (sound_reach run (fresh_sound w))
  refine ⟨exact_iff, fun calm => exact_iff.mpr ?_⟩
  exact run.invariant (I := fun c => c.world.panics = 0) (pool env) D
    (fun _ _ none hs => calm_step calm none hs) rfl

end Claim

def samplePolicy : Policy := ⟨true, "0 3 * * *", "Asia/Shanghai", 2, 1, 10, 0⟩

def sampleWorld : World where
  controller := ⟨samplePolicy, none, 0, samplePolicy, [], false, 0, 0⟩
  runMu := false
  active := 0
  lastRun := none
  lastError := ""
  scans := 0
  panics := 0
  readings := 0
  dead := false

/-- Every call of the runner ends in the same way. -/
def sampleEnvironment (outcome : Outcome) : Environment where
  controller := ⟨fun _ => true, fun _ => true, fun _ => none, fun n => n⟩
  outcome _ := outcome
  clock n := n

def beside (outcome : Outcome) : Configuration :=
  .crowd (restart sampleWorld)
    ([.start, .tick 0].map (thread (sampleEnvironment outcome)))

theorem played_reach {outcome : Outcome} {schedule : List Nat} {c : Configuration}
    (played : (pool (sampleEnvironment outcome)).play (fun _ _ _ => true) schedule
      (beside outcome) = some c) :
    Reach (pool (sampleEnvironment outcome)) .uninterrupted (fresh sampleWorld) c := by
  refine (crowd_reach (fun _ _ => trivial) _ _ fun th there => ?_).trans
    (play_reach (fun _ _ _ _ => trivial) played)
  obtain ⟨request, -, rfl⟩ := List.mem_map.mp there
  exact ⟨request, rfl⟩

/-- A scan on its way shows in the counter. -/
theorem scan_counted :
    ∃ c, Reach (pool (sampleEnvironment (.returned none))) .uninterrupted (fresh sampleWorld) c ∧
      Exact (sampleEnvironment (.returned none)) c ∧ c.world.active = 1 := by
  have played : ((pool (sampleEnvironment (.returned none))).play (fun _ _ _ => true)
      [1, 1, 1, 1, 0, 0, 0] (beside (.returned none))).map (fun c => c.world.active) = some 1 := by
    decide +kernel
  obtain ⟨c, schedule, active⟩ := Option.map_eq_some_iff.mp played
  have run := played_reach schedule
  exact ⟨c, run, (activeRuns_exact_iff _ run).2 (fun _ _ _ _ => Outcome.noConfusion), active⟩

/-- The turn has ended in a panic that was recovered, and the counter stays up. -/
theorem absorbed_panic_counted :
    ∃ c, Reach (pool (sampleEnvironment .panicked)) .uninterrupted (fresh sampleWorld) c ∧
      c.outcome 0 = some (.done, .doomed) ∧ c.world.dead = false ∧ c.world.active = 1 ∧
      (∀ t, ¬ InProgress c t) ∧ ¬ Exact (sampleEnvironment .panicked) c := by
  have played : ((pool (sampleEnvironment .panicked)).play (fun _ _ _ => true)
      [1, 1, 1, 1, 0, 0, 0, 0, 0] (beside .panicked)).map (fun c =>
        (c.outcome 0, c.world.dead, c.world.active, c.world.runMu, c.world.panics)) =
      some (some (.done, .doomed), false, 1, false, 1) := by
    decide +kernel
  obtain ⟨c, schedule, seen⟩ := Option.map_eq_some_iff.mp played
  simp only [Prod.mk.injEq] at seen
  obtain ⟨ended, alive, active, unlocked, panicked⟩ := seen
  have run := played_reach schedule
  have sound := sound_reach run (fresh_sound sampleWorld)
  refine ⟨c, run, ended, alive, active, none_of_unlocked sound.shape unlocked, fun exact_ => ?_⟩
  have none := (exact_iff sound).mp exact_
  omega

end ScanRuns
