import CertMate.HttpProtocol
import CertMate.LoginSequence
import CertMate.ServicePool

/-!
# The server

Requests, renewal scans and their workers as threads over one world. The
handlers of the other files of `internal/httpapi` only list certificates, or
start a scan.
-/
namespace HttpPool
open CertificateModel CallTrees ThreadPools SessionManager HttpHandlers ServiceCalls HttpProtocol
open CertificateService (Service)
open LoginLimiter (Manager)

/-- How a thread ends: a goroutine of the scheduler answers nobody. -/
inductive Reply where
  | response (r : Response)
  | finished

abbrev Configuration := Config Eff Ans World Local Reply

def routerOf (env : Environment) (appName : String) (s : Service) : Router :=
  ⟨appName, env.manager, s⟩

def requestThread (rt : Router) (request : Request) : Thread Eff Ans Local Reply :=
  ⟨handle rt request >>= fun r => .ret (.response r), .new (some request)⟩

def scanThread (policy : Policy) : Thread Eff Ans Local Reply :=
  ⟨service (CertificateService.runRenewalScan policy) >>= fun _ => .ret .finished, .new none⟩

def workerThread (s : Service) (policy : Policy) (scan : Nat) (id : Id) :
    Thread Eff Ans Local Reply :=
  ⟨service (CertificateService.renewalWorker s policy scan id) >>= fun _ => .ret .finished,
    .new none⟩

section Pool
variable (env : Environment) (appName : String) (s : Service)

/-- The next start: the secret of the cookies is the same, the limiter is new. -/
def restart (w : World) : World :=
  { w with
    service := ServicePool.restart env.service w.service
    limiter := { LoginSequence.fresh with calls := w.limiter.calls } }

def pool : System Eff Ans World Local Reply where
  exec := exec env
  enabled _ e w :=
    match e with
    | .service e => ServiceWorld.enabled env.service e w.service
    | _ => true
  note := note
  spawn _ e :=
    match e with
    | .service (.startWorker scan certificate policy) =>
      some (workerThread s policy scan certificate)
    | _ => none
  starts th := (∃ request, th = requestThread (routerOf env appName s) request) ∨
    ∃ policy, th = scanThread policy
  restart := restart env

/-- Nothing has been issued yet. -/
def opened (w : ServiceWorld.World) : Configuration :=
  ⟨fun _ => none, ⟨w, LoginSequence.fresh, [], 0⟩⟩

end Pool

section Protocol
variable {env : Environment} {appName : String} {s : Service}

def Ending (m : Manager) : Reply → Local → Prop
  | .response r, l => Ends m r l
  | .finished, _ => True

variable (env appName s) in
abbrev Protocol : Assertion Eff Ans World Local Reply :=
  conforming (pool env appName s) (Honest env.manager) (allows env.manager) (Ending env.manager)

theorem exec_honest (t : Nat) (e : Eff) (w : World) : Honest env.manager e (exec env t e w).1 := by
  cases e with
  | service e => exact ServiceProtocol.exec_honest env.service t e w.service
  | limiter e =>
    cases e with
    | compare client username text => rfl
    | _ => trivial
  | _ => trivial

theorem scheduler_follows {α : Type} {p : CertificateService.Operation α}
    (plain : Behaves (Permits env.manager (.new none)) p) :
    Follows (Honest env.manager) (allows env.manager) note
      (service p >>= fun _ => .ret .finished) (.new none) (Ending env.manager) :=
  service_bind plain fun _ => trivial

theorem protocol_stable {D : Discipline Eff Ans World Local Reply} :
    (Protocol env appName s).Stable (pool env appName s) D fun _ => True := by
  refine conforming_stable exec_honest ?_ ?_
  · rintro th (⟨request, rfl⟩ | ⟨policy, rfl⟩)
    · exact (handle_serves (routerOf env appName s) request).bind fun r l ends => ends
    · exact scheduler_follows (runRenewalScan_plain policy)
  · intro t e th child
    cases e with
    | service e =>
      cases e with
      | startWorker scan certificate policy =>
        cases child
        exact scheduler_follows (renewalWorker_plain s policy scan certificate)
      | _ => cases child
    | _ => cases child

theorem opened_holds (w : ServiceWorld.World) (P : Assertion Eff Ans World Local Reply)
    (world : P.world (opened w).world) : P.Holds (opened w) :=
  ⟨world, fun _ _ h => nomatch h⟩

end Protocol

def sampleEnvironment : Environment where
  service := ServicePool.sampleEnvironment
  manager := LoginSequence.sample
  limiterClock _ := 0
  clock _ := 1700000000 * second
  reads _ := true
  saves _ := none

def samplePool : System Eff Ans World Local Reply :=
  pool sampleEnvironment "CertMate" ServicePool.sampleService

def sampleLogin : Request := ⟨.absent, "", .login (some ⟨"admin", "secret"⟩)⟩

/-- The last request of the list is thread 0. -/
def asked (w : ServiceWorld.World) (requests : List Request) : Configuration :=
  .crowd (opened w).world (requests.map
    (requestThread (routerOf sampleEnvironment "CertMate" ServicePool.sampleService)))

theorem asked_reach {D : Discipline Eff Ans World Local Reply} (ok : ∀ c th, D.start c th)
    (w : ServiceWorld.World) (requests : List Request) :
    Reach samplePool D (opened w) (asked w requests) := by
  refine crowd_reach ok _ _ fun th there => Or.inl ?_
  obtain ⟨request, -, rfl⟩ := List.mem_map.mp there
  exact ⟨request, rfl⟩

end HttpPool
