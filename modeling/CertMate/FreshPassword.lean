import CertMate.AcmeEngine
import CertMate.HttpPool

/-!
# Sensitive actions need a fresh password

Where a cookie comes from is kept with it. A request that carries a private key
away, forces a renewal, revokes or deletes has a cookie that comes from a recent
login, and brings the password or a mark that a recent one has left.
-/
namespace FreshPassword
open CertificateModel CallTrees ThreadPools SessionManager HttpHandlers HttpProtocol HttpPool
open CertificateService (Service)
open LoginLimiter (Manager)

/-- The cookie `n` descends from a login at the time `signedIn`, and after that
from re-authentications, the last of them at `mark`. -/
inductive Descends (m : Manager) (cookies : List Issued) : Nat → Int → Option Int → Prop
  | login {n : Nat} {c : Issued} {username text : String} (there : cookies[n]? = some c)
      (cause : c.cause = .login username text) (name : username = m.username)
      (right : m.compare text = true) : Descends m cookies n c.time none
  | reauthenticated {n p : Nat} {c : Issued} {text : String} {signedIn : Int} {mark : Option Int}
      (there : cookies[n]? = some c) (cause : c.cause = .reauthenticate text)
      (right : m.compare text = true) (presented : c.presented = .issued p)
      (parent : Descends m cookies p signedIn mark) : Descends m cookies n signedIn (some c.time)

/-- The cookie of the request descends from a login at most one `sessionTTL`
before the request arrived, and the request carries the password or the cookie
descends from a re-authentication at most one `reauthTTL` before. -/
def Authorized (m : Manager) (cookies : List Issued) (l : Local) : Prop :=
  ∃ request n arrived signedIn mark, l.request = some request ∧ request.cookie = .issued n ∧
    l.arrived = some arrived ∧ Descends m cookies n signedIn mark ∧
    signedIn ≤ arrived ∧ arrived ≤ signedIn + sessionTTL ∧
    ((∃ text, password request.route = some text ∧ m.compare text = true) ∨
      ∃ marked, mark = some marked ∧ marked ≤ arrived ∧ arrived ≤ marked + reauthTTL)

/-- What a cookie says of its times is not later than what happened. -/
structure Backed (m : Manager) (cookies : List Issued) (n : Nat) (s : Session) (now : Int) :
    Prop where
  origin : ∃ signedIn mark, Descends m cookies n signedIn mark ∧
    s.createdAt * second ≤ signedIn ∧ signedIn ≤ now ∧
    ∀ value, s.reauthAt = some value → ∃ marked, mark = some marked ∧
      value * second ≤ marked ∧ marked ≤ now

section Cookies
variable {m : Manager} {cookies : List Issued}

theorem Descends.append {n : Nat} {signedIn : Int} {mark : Option Int}
    (h : Descends m cookies n signedIn mark) (more : List Issued) :
    Descends m (cookies ++ more) n signedIn mark := by
  have kept : ∀ {n : Nat} {c : Issued}, cookies[n]? = some c → (cookies ++ more)[n]? = some c := by
    intro n c there
    obtain ⟨less, -⟩ := List.getElem?_eq_some_iff.mp there
    rw [List.getElem?_append_left less]
    exact there
  induction h with
  | login there cause name right => exact .login (kept there) cause name right
  | reauthenticated there cause right presented _ ih =>
    exact .reauthenticated (kept there) cause right presented ih

theorem Backed.append {n : Nat} {s : Session} {now : Int} (h : Backed m cookies n s now)
    (more : List Issued) : Backed m (cookies ++ more) n s now := by
  obtain ⟨signedIn, mark, descends, rest⟩ := h.origin
  exact ⟨signedIn, mark, descends.append more, rest⟩

theorem Backed.later {n : Nat} {s : Session} {now now' : Int} (h : Backed m cookies n s now)
    (later : now ≤ now') : Backed m cookies n s now' := by
  obtain ⟨signedIn, mark, descends, created, before, marks⟩ := h.origin
  refine ⟨signedIn, mark, descends, created, by omega, fun value found => ?_⟩
  obtain ⟨marked, same, early, past⟩ := marks value found
  exact ⟨marked, same, early, by omega⟩

end Cookies

/-- Every cookie that claims a login is backed by one. -/
def Sound (env : Environment) (w : World) : Prop :=
  ∀ n c, w.cookies[n]? = some c → c.session.authenticated = true →
    Backed env.manager w.cookies n c.session (env.clock w.calls)

/-- What is known of a request under way. -/
structure Grounded (env : Environment) (l : Local) (w : World) : Prop where
  past : ∀ t ∈ l.times, t ≤ env.clock w.calls
  after : ∀ arrived, l.arrived = some arrived →
    arrived ≤ env.clock w.calls ∧ ∀ t ∈ l.times, arrived ≤ t
  backed : ∀ s, l.session = some s → s.authenticated = true →
    ∃ request n arrived, l.request = some request ∧ request.cookie = .issued n ∧
      l.arrived = some arrived ∧ Backed env.manager w.cookies n s arrived

def provenance (env : Environment) : Assertion Eff Ans World Local Reply where
  world w := Sound env w
  thread _ th w := Grounded env th.seen w

section Steps
variable {env : Environment} {t : Nat} {w : World} {l : Local}

variable (env) in
/-- A call adds to the cookies at most. -/
theorem exec_cookies (t : Nat) (e : Eff) (w : World) :
    (∃ more, (exec env t e w).2.cookies = w.cookies ++ more) ∧
      w.calls ≤ (exec env t e w).2.calls := by
  cases e with
  | save cookie cause session =>
    simp only [exec]
    split
    · exact ⟨⟨[], (List.append_nil _).symm⟩, Nat.le_succ _⟩
    · exact ⟨⟨_, rfl⟩, Nat.le_succ _⟩
  | present | now => exact ⟨⟨[], (List.append_nil _).symm⟩, Nat.le_succ _⟩
  | service | limiter => exact ⟨⟨[], (List.append_nil _).symm⟩, Nat.le_refl _⟩

/-- The calls of the others. -/
theorem Grounded.other (steady : Monotone env.clock) (h : Grounded env l w) (t : Nat) (e : Eff) :
    Grounded env l (exec env t e w).2 := by
  obtain ⟨⟨more, cookies⟩, calls⟩ := exec_cookies env t e w
  have later : env.clock w.calls ≤ env.clock (exec env t e w).2.calls := steady calls
  refine ⟨fun t there => ?_, fun arrived found => ?_, fun s found claimed => ?_⟩
  · have before := h.past t there
    omega
  · obtain ⟨before, rest⟩ := h.after arrived found
    exact ⟨by omega, rest⟩
  · obtain ⟨request, n, arrived, mine, presented, at_, backed⟩ := h.backed s found claimed
    rw [cookies]
    exact ⟨request, n, arrived, mine, presented, at_, backed.append more⟩

/-- The note of its own call. -/
theorem Grounded.own (steady : Monotone env.clock) (sound : Sound env w) (h : Grounded env l w)
    (t : Nat) {e : Eff} (allowed : allows env.manager l e) :
    Grounded env (note l e (exec env t e w).1) (exec env t e w).2 := by
  have kept := h.other steady t e
  cases e with
  | service e =>
    cases e with
    | store q =>
      cases q with
      | createAuditEvent event =>
        simp only [note]
        split
        · exact ⟨kept.past, kept.after, kept.backed⟩
        · exact kept
      | _ => exact kept
    | _ => exact kept
  | limiter e => exact kept
  | save cookie cause session => exact kept
  | now =>
    have later : env.clock w.calls ≤ env.clock (w.calls + 1) := steady (Nat.le_succ _)
    refine ⟨List.forall_mem_cons.mpr ⟨later, kept.past⟩, fun arrived found => ?_, kept.backed⟩
    obtain ⟨before, rest⟩ := kept.after arrived found
    have now := (h.after arrived found).1
    exact ⟨before, List.forall_mem_cons.mpr ⟨now, rest⟩⟩
  | present cookie =>
    obtain ⟨unread, request, mine, presented⟩ := allowed
    have later : env.clock w.calls ≤ env.clock (w.calls + 1) := steady (Nat.le_succ _)
    refine ⟨kept.past, fun arrived found => ?_, fun s found claimed => ?_⟩
    · cases found
      refine ⟨later, fun t there => ?_⟩
      change t ∈ l.times at there
      rw [unread] at there
      cases there
    · change decode env cookie w = some s at found
      cases cookie with
      | absent =>
        cases found
        cases claimed
      | unreadable => cases found
      | issued n =>
        simp only [decode] at found
        split at found
        · obtain ⟨c, there, rfl⟩ := Option.map_eq_some_iff.mp found
          exact ⟨request, n, env.clock w.calls, mine, presented.symm, rfl, sound n c there claimed⟩
        · cases found

/-- A new cookie is backed. -/
theorem sound_save (h : Grounded env l w) {cookie : Presented} {cause : Cause}
    {session : Session} (grounds : Grounds env.manager l cookie cause session)
    (claimed : session.authenticated = true) :
    let c : Issued := ⟨session, cookie, cause, env.clock w.calls⟩
    Backed env.manager (w.cookies ++ [c]) w.cookies.length session (env.clock w.calls) := by
  intro c
  have there : (w.cookies ++ [c])[w.cookies.length]? = some c := by simp
  obtain ⟨⟨request, mine, presented⟩, grounds⟩ := grounds
  have seconds : ∀ t : Int, t / second * second ≤ t := fun t => Int.ediv_mul_le t (by decide)
  cases cause with
  | login username text =>
    obtain ⟨name, right, unmarked, t, read, created⟩ := grounds
    have past := h.past t read
    have floor := seconds t
    refine ⟨env.clock w.calls, none, .login there rfl name right, ?_, Int.le_refl _, ?_⟩
    · rw [created]
      omega
    · rw [unmarked]
      exact (fun _ h => nomatch h)
  | reauthenticate text =>
    obtain ⟨right, s, t, found, authenticated, read, same⟩ := grounds
    obtain ⟨request', p, arrived, mine', presented', at_, backed⟩ := h.backed s found authenticated
    obtain ⟨signedIn, mark, descends, created, before, -⟩ := backed.origin
    cases mine.symm.trans mine'
    have arrival := (h.after arrived at_).1
    have past := h.past t read
    have floor := seconds t
    refine ⟨signedIn, some (env.clock w.calls), .reauthenticated there rfl right
      (presented.trans presented') (descends.append [c]), ?_, by omega, ?_⟩
    · rw [same]
      exact created
    · rw [same]
      rintro value ⟨⟩
      exact ⟨_, rfl, by omega, Int.le_refl _⟩
  | logout =>
    cases grounds
    cases claimed

theorem Sound.step (steady : Monotone env.clock) (sound : Sound env w) (h : Grounded env l w)
    (t : Nat) {e : Eff} (allowed : allows env.manager l e) : Sound env (exec env t e w).2 := by
  obtain ⟨-, calls⟩ := exec_cookies env t e w
  have later : env.clock w.calls ≤ env.clock (exec env t e w).2.calls := steady calls
  cases e with
  | save cookie cause session =>
    simp only [exec] at later ⊢
    split
    · rename_i failing
      rw [failing] at later
      exact fun n c there claimed => (sound n c there claimed).later later
    · rename_i saving
      rw [saving] at later
      intro n c there claimed
      by_cases old : n < w.cookies.length
      · rw [List.getElem?_append_left old] at there
        exact ((sound n c there claimed).append _).later later
      · rw [List.getElem?_append_right (by omega)] at there
        obtain ⟨less, same⟩ := List.getElem?_eq_some_iff.mp there
        have last : n = w.cookies.length := by
          simp only [List.length_singleton] at less
          omega
        subst last
        simp only [Nat.sub_self, List.getElem_cons_zero] at same
        subst same
        exact (sound_save h allowed claimed).later later
  | present | now =>
    exact fun n c there claimed => (sound n c there claimed).later later
  | service | limiter => exact sound

theorem grounded_new (request : Option Request) (w : World) : Grounded env (.new request) w where
  past := fun _ h => nomatch h
  after := fun _ h => nomatch h
  backed := fun _ h => nomatch h

end Steps

section Runs
variable {env : Environment} {appName : String} {s : Service} {t : Nat} {w : World} {l : Local}

theorem provenance_stable (steady : Monotone env.clock)
    {D : Discipline Eff Ans World Local Reply} :
    (provenance env).Stable (pool env appName s) D (Protocol env appName s).Holds where
  own c t e k l conforms h running _ _ := by
    have allowed : allows env.manager l e := allowed_of_conforming conforms running
    have grounded : Grounded env l c.world := h.thread t _ running
    exact ⟨h.world.step steady grounded t allowed, grounded.own steady h.world t allowed⟩
  other c t e _ _ u th _ h _ _ _ _ there := (h.thread u th there).other steady t e
  start c _ th _ _ _ starts _ := by
    rcases starts with ⟨request, rfl⟩ | ⟨policy, rfl⟩
    · exact grounded_new _ c.world
    · exact grounded_new _ c.world
  spawn c t e _ _ u child _ h _ spawned _ _ := by
    cases e with
    | service e =>
      cases e with
      | startWorker scan certificate policy =>
        cases spawned
        exact grounded_new _ _
      | _ => cases spawned
    | _ => cases spawned
  crash _ _ h _ := h.world

/-- A request that is cleared has a cookie to show for it. -/
theorem authorized_of_cleared (h : Grounded env l w) (cleared : Cleared env.manager l) :
    Authorized env.manager w.cookies l := by
  obtain ⟨request, session, mine, found, ⟨signed, t, read, early⟩, proof⟩ := cleared
  have claimed : session.authenticated = true := by
    simp only [Session.signed, Bool.and_eq_true] at signed
    exact signed.1.1
  obtain ⟨request', n, arrived, mine', presented, at_, backed⟩ := h.backed session found claimed
  cases mine.symm.trans mine'
  obtain ⟨signedIn, mark, descends, created, before, marks⟩ := backed.origin
  have after := (h.after arrived at_).2
  refine ⟨request, n, arrived, signedIn, mark, mine, presented, at_, descends, before, ?_, ?_⟩
  · have first := after t read
    unfold Session.expiry at early
    unfold maxAge sessionTTL second at *
    omega
  · refine proof.imp_right ?_
    rintro ⟨value, t', carried, read', fresh⟩
    obtain ⟨marked, same, floor, past⟩ := marks value carried
    have first := after t' read'
    exact ⟨marked, same, past, by omega⟩

theorem provenance_reach (steady : Monotone env.clock) {w : ServiceWorld.World}
    {D : Discipline Eff Ans World Local Reply} {c : Configuration}
    (run : Reach (pool env appName s) D (opened w) c) :
    (Protocol env appName s).Holds c ∧ (provenance env).Holds c := by
  refine (provenance_stable steady).reach (fun c c' conforms step => ?_) run
    (opened_holds w _ trivial) (opened_holds w _ fun n c there _ => nomatch there)
  exact protocol_stable.step trivial conforms step

end Runs

def Discloses (th : Thread Eff Ans Local Reply) : Prop :=
  ∃ r, th.prog = .ret (.response r) ∧ carriesKey r = true

def Forces (cli : AcmeEngine.CLI) (parsers : AcmeEngine.Parsers)
    (th : Thread Eff Ans Local Reply) : Prop :=
  ∃ e k arguments, th.prog = .call (.service e) k ∧ AcmeEngine.Starts cli parsers e arguments ∧
    "--force" ∈ arguments

def Revokes (th : Thread Eff Ans Local Reply) : Prop :=
  ∃ id request k, th.prog = .call (.service (.revokeACME id request)) k

def Deletes (th : Thread Eff Ans Local Reply) : Prop :=
  ∃ id event k, th.prog = .call (.service (.store (.deleteCertificateWithAudit id event))) k

section Results
variable {env : Environment} {appName : String} {s : Service} {c : Configuration} {t : Nat}
  {th : Thread Eff Ans Local Reply}

theorem cleared_of_discloses (h : (Protocol env appName s).Holds c) (there : c.threads t = some th)
    (discloses : Discloses th) : Cleared env.manager th.seen := by
  obtain ⟨r, answered, carries⟩ := discloses
  have follows := h.thread t th there
  change Follows _ _ _ th.prog th.seen _ at follows
  rw [answered] at follows
  exact (follows carries).1

theorem permits_of_sensitive (h : (Protocol env appName s).Holds c) (there : c.threads t = some th)
    {e : ServiceWorld.Eff} {k : ServiceWorld.Ans e → Prog Eff Ans Reply}
    (running : th.prog = .call (.service e) k) (sensitive : Sensitive e) :
    Permits env.manager th.seen e := by
  have follows := h.thread t th there
  change Follows _ _ _ th.prog th.seen _ at follows
  rw [running] at follows
  exact follows.1 sensitive

/-- Only the route for it forces a renewal. -/
theorem permits_of_forces (h : (Protocol env appName s).Holds c) (there : c.threads t = some th)
    {cli : AcmeEngine.CLI} {parsers : AcmeEngine.Parsers} (forces : Forces cli parsers th) :
    Cleared env.manager th.seen ∧
      ∃ request id, th.seen.request = some request ∧ request.route = .forceRenewCertificate id := by
  obtain ⟨e, k, arguments, running, starts, forced⟩ := forces
  obtain ⟨id, order, rfl, force⟩ := AcmeEngine.starts_forced cli parsers starts forced
  obtain ⟨cleared, request, mine, asks⟩ := permits_of_sensitive h there running force
  refine ⟨cleared, request, ?_⟩
  cases route : request.route with
  | forceRenewCertificate id => exact ⟨id, mine, rfl⟩
  | _ =>
    rw [route] at asks
    exact asks.elim

/-- A response with a private key, a forced run of `acme.sh`, a revocation and a
deletion come from a request whose cookie descends from a login no longer ago
than the lifetime of a session, with the password in the request itself or given
again at most five minutes before. -/
theorem sensitive_needs_password (steady : Monotone env.clock) (cli : AcmeEngine.CLI)
    (parsers : AcmeEngine.Parsers) {w : ServiceWorld.World}
    (run : Reach (pool env appName s) .any (opened w) c) (there : c.threads t = some th) :
    (Discloses th ∨ Forces cli parsers th ∨ Revokes th ∨ Deletes th →
      Authorized env.manager c.world.cookies th.seen) ∧
    (Forces cli parsers th → ∃ request id, th.seen.request = some request ∧
      request.route = .forceRenewCertificate id) := by
  obtain ⟨conforms, backed⟩ := provenance_reach steady run
  have grounded : Grounded env th.seen c.world := backed.thread t th there
  refine ⟨fun sensitive => authorized_of_cleared grounded ?_,
    fun forces => (permits_of_forces conforms there forces).2⟩
  rcases sensitive with discloses | forces | ⟨id, request, k, running⟩ | ⟨id, event, k, running⟩
  · exact cleared_of_discloses conforms there discloses
  · exact (permits_of_forces conforms there forces).1
  · exact (permits_of_sensitive conforms there running trivial).1
  · exact (permits_of_sensitive conforms there running trivial).1

end Results

def sampleCLI : AcmeEngine.CLI := ⟨"/acme", "/challenges", by decide, by decide⟩

def sampleParsers : AcmeEngine.Parsers := AcmeEngine.noParsers

def deletion : Configuration :=
  asked ServicePool.sampleWorld
    [⟨.issued 0, "", .deleteCertificate 0 (some ⟨"secret", "example", false⟩)⟩, sampleLogin]

def deleting (th : Thread Eff Ans Local Reply) : Bool :=
  match th.prog with
  | .call (.service (.store (.deleteCertificateWithAudit _ _))) _ => true
  | _ => false

theorem deletes_of_deleting {th : Thread Eff Ans Local Reply} (h : deleting th = true) :
    Deletes th := by
  unfold deleting at h
  split at h
  · exact ⟨_, _, _, by assumption⟩
  · cases h

theorem sensitive_needs_password_delete : ∃ (c : Configuration) (th : Thread Eff Ans Local Reply),
    c.threads 1 = some th ∧ Deletes th ∧
      Authorized sampleEnvironment.manager c.world.cookies th.seen := by
  have played : ((samplePool.play (fun _ _ _ => true) (List.replicate 6 0 ++ List.replicate 10 1)
      deletion).bind fun c => (c.threads 1).map deleting) = some true := by
    decide +kernel
  obtain ⟨c, schedule, seen⟩ := Option.bind_eq_some_iff.mp played
  obtain ⟨th, there, asks⟩ := Option.map_eq_some_iff.mp seen
  have deletes := deletes_of_deleting asks
  have run := (asked_reach (fun _ _ => trivial) _ _).trans
    (play_reach (D := .any) (fun _ _ _ _ => trivial) schedule)
  exact ⟨c, th, there, deletes, (sensitive_needs_password (fun _ _ _ => Int.le_refl _) sampleCLI
    sampleParsers run there).1 (Or.inr (Or.inr (Or.inr deletes)))⟩

end FreshPassword
