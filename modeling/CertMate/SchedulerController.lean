import CertMate.CertificateModel
import CertMate.ThreadPools

/-!
# The scheduler's controller

`internal/scheduler/controller.go`: `Start`, `Update` and `Stop` over the stored
policy, the controller's fields and the cron instances it has made.
-/
namespace SchedulerController
open CallTrees ThreadPools
open CertificateModel (Time)

/-- `scheduler.Policy`. -/
structure Policy where
  enabled : Bool
  cronExpression : String
  timezone : String
  maxConcurrency : Int
  retryCount : Int
  retryIntervalSeconds : Int
  updatedAt : Time
  deriving DecidableEq, Repr

/-- What a cron instance is made of. -/
structure Spec where
  enabled : Bool
  expression : String
  timezone : String
  deriving DecidableEq, Repr

def specOf (policy : Policy) : Spec := ⟨policy.enabled, policy.cronExpression, policy.timezone⟩

/-- Equal but for `UpdatedAt`. -/
def SamePolicy (p q : Policy) : Prop := { p with updatedAt := 0 } = { q with updatedAt := 0 }

/-- A `*cron.Cron`. `maker` is the thread that made it, `installed` says that it
has been in the controller's field. -/
structure Instance where
  spec : Spec
  started : Bool
  stopped : Bool
  maker : Nat
  installed : Bool
  deriving DecidableEq, Repr

inductive Eff where
  | renewalPolicy
  | updateRenewalPolicy (policy : Policy)
  | newCron (spec : Spec)
  | startCron (instanceId : Nat)
  | swap (instanceId entryID : Nat) (policy : Policy)
  | takeCron
  | stopCron (instanceId : Nat)
  | awaitJobs (instanceId : Nat)
  | cancel
  | now
  deriving DecidableEq, Repr

/-- The store answers a write with its number, which the code does not see. -/
abbrev Ans : Eff → Type
  | .renewalPolicy => Except String Policy
  | .updateRenewalPolicy _ => Except String Nat
  | .newCron _ => Nat
  | .swap _ _ _ => Option Nat
  | .takeCron => Option Nat
  | .awaitJobs _ => Except String Unit
  | .now => Time
  | _ => Unit

/-- The time zones and cron expressions that are understood, and what fails at
the `n`-th call. -/
structure Environment where
  loadsLocation : String → Bool
  parses : String → Bool
  fails : Nat → Option String
  clock : Nat → Time

/-- `writes` counts the writes of the policy row. -/
structure World where
  stored : Policy
  cron : Option Nat
  entryID : Nat
  policy : Policy
  instances : List Instance
  cancelled : Bool
  writes : Nat
  calls : Nat

def World.tick (w : World) : World := { w with calls := w.calls + 1 }

def World.alter (w : World) (i : Nat) (f : Instance → Instance) : World :=
  { w with instances := w.instances.modify i f }

section Execution
variable (env : Environment)

/-- The fields of the controller are read and written under its mutex. The
constraints of the policy row are among what `validate` checks. -/
def exec (thread : Nat) : (e : Eff) → World → Ans e × World
  | .renewalPolicy, w =>
    match env.fails w.calls with
    | some err => (.error ("读取续签策略: " ++ err), w.tick)
    | none => (.ok w.stored, w.tick)
  | .updateRenewalPolicy policy, w =>
    match env.fails w.calls with
    | some err => (.error ("更新续签策略: " ++ err), w.tick)
    | none =>
      (.ok (w.writes + 1), { w.tick with
        stored := { policy with updatedAt := env.clock w.calls }
        writes := w.writes + 1 })
  | .newCron spec, w =>
    (w.instances.length, { w with instances := w.instances ++ [⟨spec, false, false, thread, false⟩] })
  | .startCron i, w => ((), w.alter i fun x => { x with started := true })
  | .swap i entryID policy, w =>
    (w.cron, { w.alter i fun x => { x with installed := true } with
      cron := some i
      entryID := entryID
      policy := policy })
  | .takeCron, w => (w.cron, { w with cron := none })
  | .stopCron i, w => ((), w.alter i fun x => { x with stopped := true })
  | .awaitJobs _, w =>
    match env.fails w.calls with
    | some err => (.error err, w.tick)
    | none => (.ok (), w.tick)
  | .cancel, w => ((), { w with cancelled := true })
  | .now, w => (env.clock w.calls, w.tick)

abbrev Operation (α : Type) := Prog Eff Ans α

def validate (policy : Policy) : Bool :=
  !(policy.cronExpression = "" || policy.timezone = "" || decide (policy.maxConcurrency < 1) ||
      decide (16 < policy.maxConcurrency) || decide (policy.retryCount < 0) ||
      decide (10 < policy.retryCount) || decide (policy.retryIntervalSeconds < 1) ||
      decide (86400 < policy.retryIntervalSeconds)) &&
    env.loadsLocation policy.timezone && env.parses policy.cronExpression

/-- The first entry of an instance gets the number 1. -/
def build (policy : Policy) : Operation (Except String (Nat × Nat)) := do
  if !validate env policy then return .error "invalid renewal policy"
  else
    let instanceId ← Prog.perform (Eff.newCron (specOf policy))
    if policy.enabled then
      if env.parses policy.cronExpression then return .ok (instanceId, 1)
      else return .error "failed to parse the cron expression"
    else return .ok (instanceId, 0)

def start : Operation (Except String Unit) := do
  match ← Prog.perform Eff.renewalPolicy with
  | .error err => return .error err
  | .ok policy =>
    match ← build env policy with
    | .error err => return .error err
    | .ok (instanceId, entryID) =>
      Prog.perform (Eff.startCron instanceId)
      let _ ← Prog.perform (Eff.swap instanceId entryID policy)
      return .ok ()

def update (policy : Policy) : Operation (Except String Unit) := do
  match ← build env policy with
  | .error err => return .error err
  | .ok (instanceId, entryID) =>
    match ← Prog.perform (Eff.updateRenewalPolicy policy) with
    | .error err => return .error err
    | .ok _ =>
      let updatedAt ← Prog.perform Eff.now
      Prog.perform (Eff.startCron instanceId)
      match ← Prog.perform (Eff.swap instanceId entryID { policy with updatedAt := updatedAt }) with
      | none => return .ok ()
      | some old =>
        Prog.perform (Eff.stopCron old)
        return .ok ()

def stop : Operation (Except String Unit) := do
  Prog.perform Eff.cancel
  match ← Prog.perform Eff.takeCron with
  | none => return .ok ()
  | some instanceId =>
    Prog.perform (Eff.stopCron instanceId)
    Prog.perform (Eff.awaitJobs instanceId)

end Execution

end SchedulerController
