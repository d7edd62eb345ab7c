import CertMate.CertificateService
import CertMate.LoginLimiter

/-!
# Sessions

`internal/auth/manager.go` from `Login` on. All that is kept of a session is in
its cookie: a request may present any cookie that was ever issued, and no other
one can be read. Times are nanoseconds since 1970 in UTC. A method gets the session that
the request has presented, or nothing if it could not be read.
-/
namespace SessionManager
open CertificateModel CallTrees
open LoginLimiter (Manager)

def second : Int := 1000000000

/-- `Config.SessionTTL`. -/
def sessionTTL : Int := 12 * 60 * 60 * second

/-- The `MaxAge` of the cookie, in seconds. -/
def maxAge : Int := sessionTTL / second

def reauthTTL : Int := 5 * 60 * second

/-- The values of a session; what is missing reads as the zero value, and
`reauthAt` as `none`. -/
structure Session where
  authenticated : Bool
  username : String
  createdAt : Int
  reauthAt : Option Int
  deriving DecidableEq, Repr

def Session.empty : Session := ⟨false, "", 0, none⟩

inductive Presented where
  | absent
  | unreadable
  | issued (n : Nat)
  deriving DecidableEq, Repr

/-- What a cookie was issued for, and with which credentials. -/
inductive Cause where
  | login (username password : String)
  | reauthenticate (password : String)
  | logout
  deriving DecidableEq, Repr

/-- A cookie, the one its request had presented, and when it was issued. -/
structure Issued where
  session : Session
  presented : Presented
  cause : Cause
  time : Int
  deriving DecidableEq, Repr

/-- The calls of the HTTP layer. Of the arguments of `save` the call sees the
session only. -/
inductive Eff where
  | service (e : ServiceWorld.Eff)
  | limiter (e : LoginLimiter.Eff)
  | present (cookie : Presented)
  | now
  | save (cookie : Presented) (cause : Cause) (session : Session)

/-- `present` answers the time besides, for the record, and no session where the
cookie cannot be read. -/
abbrev Ans : Eff → Type
  | .service e => ServiceWorld.Ans e
  | .limiter e => LoginLimiter.Ans e
  | .present _ => Int × Option Session
  | .now => Int
  | .save _ _ _ => Except Error Unit

abbrev Operation (α : Type) := Prog Eff Ans α

section Calls

def service {α : Type} (p : CertificateService.Operation α) : Operation α :=
  p.lift fun e => Prog.perform (Eff.service e)

def limiter {α : Type} (p : Prog LoginLimiter.Eff LoginLimiter.Ans α) : Operation α :=
  p.lift fun e => Prog.perform (Eff.limiter e)

abbrev present (cookie : Presented) : Operation (Int × Option Session) :=
  Prog.perform (Eff.present cookie)

abbrev now : Operation Int := Prog.perform Eff.now

abbrev save (cookie : Presented) (cause : Cause) (session : Session) :
    Operation (Except Error Unit) := Prog.perform (Eff.save cookie cause session)

end Calls

/-- `clock n` is the time of the `n`-th call here, `reads n` says whether a
cookie can still be decoded then, `saves n` whether encoding one fails. -/
structure Environment where
  service : ServiceWorld.Environment
  manager : Manager
  limiterClock : Nat → Int
  clock : Nat → Int
  reads : Nat → Bool
  saves : Nat → Option Error

/-- `cookies` are those issued so far, the oldest first. -/
structure World where
  service : ServiceWorld.World
  limiter : LoginLimiter.World
  cookies : List Issued
  calls : Nat

def World.tick (w : World) : World := { w with calls := w.calls + 1 }

section Execution
variable (env : Environment)

def decode (cookie : Presented) (w : World) : Option Session :=
  match cookie with
  | .absent => some .empty
  | .unreadable => none
  | .issued n => if env.reads w.calls then w.cookies[n]?.map Issued.session else none

def exec (thread : Nat) : (e : Eff) → World → Ans e × World
  | .service e, w =>
    ((ServiceWorld.exec env.service thread e w.service).1,
      { w with service := (ServiceWorld.exec env.service thread e w.service).2 })
  | .limiter e, w =>
    ((LoginLimiter.exec env.manager env.limiterClock e w.limiter).1,
      { w with limiter := (LoginLimiter.exec env.manager env.limiterClock e w.limiter).2 })
  | .present cookie, w => ((env.clock w.calls, decode env cookie w), w.tick)
  | .now, w => (env.clock w.calls, w.tick)
  | .save cookie cause session, w =>
    match env.saves w.calls with
    | some err => (.error err, w.tick)
    | none =>
      (.ok (), { w.tick with
        cookies := w.cookies ++ [⟨session, cookie, cause, env.clock w.calls⟩] })

end Execution

section Methods
variable (m : Manager)

/-- The part of `CurrentUser` before it reads the clock. -/
def Session.signed (s : Session) : Bool :=
  s.authenticated && decide (s.username = m.username) && decide (s.createdAt ≠ 0)

def Session.expiry (s : Session) : Int := (s.createdAt + maxAge) * second

def currentUser (session : Option Session) : Operation (Option String) := do
  match session with
  | none => return none
  | some s =>
    if !s.signed m then return none
    else
      let t ← now
      if s.expiry < t then return none else return some s.username

/-- `username` and `password` are those `Authenticate` has accepted. -/
def login (cookie : Presented) (session : Option Session) (username password : String) :
    Operation (Except Error Session) := do
  let t ← now
  let s : Session := { session.getD .empty with
    authenticated := true
    username := m.username
    createdAt := t / second
    reauthAt := none }
  match ← save cookie (.login username password) s with
  | .error err => return .error err
  | .ok () => return .ok s

def logout (cookie : Presented) : Operation (Except Error Unit) := save cookie .logout .empty

inductive ReauthError where
  | unauthenticated
  | invalidCredentials
  | failed (err : Error)

def reauthenticate (cookie : Presented) (session : Option Session) (password : String) :
    Operation (Except ReauthError Session) := do
  match ← currentUser m session with
  | none => return .error .unauthenticated
  | some _ =>
    if !m.compare password then return .error .invalidCredentials
    else
      let t ← now
      let s : Session := { session.getD .empty with reauthAt := some (t / second) }
      match ← save cookie (.reauthenticate password) s with
      | .error err => return .error (.failed err)
      | .ok () => return .ok s

def reauthenticated (session : Option Session) : Operation Bool := do
  match ← currentUser m session with
  | none => return false
  | some _ =>
    match session.bind Session.reauthAt with
    | none => return false
    | some value =>
      let t ← now
      return decide (t - value * second ≤ reauthTTL)

end Methods

end SessionManager
