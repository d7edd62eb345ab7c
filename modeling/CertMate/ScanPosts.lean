import CertMate.Bystanders
import CertMate.OperationCalls
import CertMate.ThreadNotes

/-!
# Where a thread is with a scan

A renewal scan counts a certificate before it starts the goroutine for it. The
goroutine waits for a slot of the scan's semaphore, gives it back when it has
had one, and is done last. What the programs do with scans, call by call.
-/
namespace ScanPosts
open CertificateModel CallTrees ThreadPools ServiceWorld CertificateService ServiceProtocol
  ServicePool OperationCalls
open SqliteStore hiding exec

inductive Post where
  | apart
  | opening (limit : Nat)
  | looping (limit scan : Nat)
  | counted (limit scan : Nat) (certificate : Id)
  | gathered (limit scan : Nat)
  | queued (limit scan : Nat) (certificate : Id)
  | seated (limit scan : Nat) (certificate : Id)
  | leaving (limit scan : Nat) (certificate : Id)
  | left (limit scan : Nat) (certificate : Id)

namespace Post

def first : Request → Post
  | .scan policy => .opening policy.maxConcurrency
  | .worker policy scan certificate => .queued policy.maxConcurrency scan certificate
  | _ => .apart

def Busy : Post → Prop
  | .apart | .seated _ _ _ => True
  | _ => False

def Lists : Post → Prop
  | .opening _ | .looping _ _ => True
  | _ => False

def allows (post : Post) : Eff → Prop
  | .newScan capacity => post = .opening capacity
  | .addWorker scan _ | .waitWorkers scan => ∃ limit, post = .looping limit scan
  | .startWorker scan certificate policy => post = .counted policy.maxConcurrency scan certificate
  | .reportedErrors scan => ∃ limit, post = .gathered limit scan
  | .acquireSlot scan => ∃ limit certificate, post = .queued limit scan certificate
  | .reportError scan _ | .releaseSlot scan =>
    ∃ limit certificate, post = .seated limit scan certificate
  | .workerDone scan certificate => ∃ limit, post = .leaving limit scan certificate
  | .store .certificates | .now => post.Busy ∨ post.Lists
  | _ => post.Busy

def note : Post → (e : Eff) → Ans e → Post
  | .opening limit, .newScan _, scan => .looping limit scan
  | .looping limit scan, .addWorker _ certificate, _ => .counted limit scan certificate
  | .counted limit scan _, .startWorker _ _ _, _ => .looping limit scan
  | .looping limit scan, .waitWorkers _, _ => .gathered limit scan
  | .queued limit scan certificate, .acquireSlot _, true => .seated limit scan certificate
  | .queued limit scan certificate, .acquireSlot _, false => .leaving limit scan certificate
  | .seated limit scan certificate, .releaseSlot _, _ => .leaving limit scan certificate
  | .leaving limit scan certificate, .workerDone _ _, _ => .left limit scan certificate
  | post, _, _ => post

/-- Nothing is owed any more. -/
def Over : Post → Prop
  | .apart | .opening _ | .gathered _ _ | .left _ _ _ => True
  | _ => False

/-- The scan in whose semaphore the thread has a slot. -/
def slot : Post → Option Nat
  | .seated _ scan _ => some scan
  | _ => none

/-- The scan whose wait group counts the thread, or what the thread is about to start,
and the certificate. -/
def member : Post → Option (Nat × Id)
  | .counted _ scan certificate | .queued _ scan certificate | .seated _ scan certificate
  | .leaving _ scan certificate => some (scan, certificate)
  | _ => none

/-- The scan that the thread runs. -/
def own : Post → Option Nat
  | .looping _ scan | .counted _ scan _ | .gathered _ scan => some scan
  | _ => none

/-- The scan the thread belongs to, with its limit. -/
def place : Post → Option (Nat × Nat)
  | .apart | .opening _ => none
  | .looping limit scan | .counted limit scan _ | .gathered limit scan | .queued limit scan _
  | .seated limit scan _ | .leaving limit scan _ | .left limit scan _ => some (limit, scan)

def tier : Post → Nat
  | .opening _ | .looping _ _ | .counted _ _ _ | .gathered _ _ => 1
  | _ => 0

/-- A call that is not about a scan is nothing to a thread that may make it. -/
theorem note_apart {post : Post} {e : Eff} (apart : Apart e) (r : Ans e) :
    post.note e r = post := by
  cases e <;> first | exact apart.elim | (cases post <;> rfl)

/-- What a call that is allowed makes of a post. -/
inductive Move : Post → (e : Eff) → Ans e → Post → Prop
  | apart {post : Post} {e : Eff} {r : Ans e} (h : Apart e) : Move post e r post
  | opens (limit scan : Nat) : Move (.opening limit) (.newScan limit) scan (.looping limit scan)
  | counts (limit scan : Nat) (certificate : Id) : Move (.looping limit scan)
      (.addWorker scan certificate) () (.counted limit scan certificate)
  | starts (policy : Policy) (scan : Nat) (certificate : Id) :
      Move (.counted policy.maxConcurrency scan certificate) (.startWorker scan certificate policy)
        () (.looping policy.maxConcurrency scan)
  | waited (limit scan : Nat) :
      Move (.looping limit scan) (.waitWorkers scan) () (.gathered limit scan)
  | reported (limit scan : Nat) (errors : List Error) :
      Move (.gathered limit scan) (.reportedErrors scan) errors (.gathered limit scan)
  | seats (limit scan : Nat) (certificate : Id) : Move (.queued limit scan certificate)
      (.acquireSlot scan) true (.seated limit scan certificate)
  | refused (limit scan : Nat) (certificate : Id) : Move (.queued limit scan certificate)
      (.acquireSlot scan) false (.leaving limit scan certificate)
  | failed (limit scan : Nat) (certificate : Id) (err : Error) :
      Move (.seated limit scan certificate) (.reportError scan err) ()
        (.seated limit scan certificate)
  | gives (limit scan : Nat) (certificate : Id) : Move (.seated limit scan certificate)
      (.releaseSlot scan) () (.leaving limit scan certificate)
  | ends (limit scan : Nat) (certificate : Id) : Move (.leaving limit scan certificate)
      (.workerDone scan certificate) () (.left limit scan certificate)

theorem move_note {post : Post} {e : Eff} (allowed : post.allows e) (r : Ans e) :
    Move post e r (post.note e r) := by
  have other : Apart e → Move post e r (post.note e r) := by
    intro apart
    rw [note_apart apart]
    exact .apart apart
  cases e with
  | newScan capacity =>
    obtain rfl : post = .opening capacity := allowed
    exact .opens capacity r
  | addWorker scan certificate =>
    obtain ⟨limit, rfl⟩ := allowed
    exact .counts limit scan certificate
  | startWorker scan certificate policy =>
    obtain rfl : post = .counted policy.maxConcurrency scan certificate := allowed
    exact .starts policy scan certificate
  | waitWorkers scan =>
    obtain ⟨limit, rfl⟩ := allowed
    exact .waited limit scan
  | reportedErrors scan =>
    obtain ⟨limit, rfl⟩ := allowed
    exact .reported limit scan r
  | acquireSlot scan =>
    obtain ⟨limit, certificate, rfl⟩ := allowed
    cases r with
    | true => exact .seats limit scan certificate
    | false => exact .refused limit scan certificate
  | reportError scan err =>
    obtain ⟨limit, certificate, rfl⟩ := allowed
    exact .failed limit scan certificate err
  | releaseSlot scan =>
    obtain ⟨limit, certificate, rfl⟩ := allowed
    exact .gives limit scan certificate
  | workerDone scan certificate =>
    obtain ⟨limit, rfl⟩ := allowed
    exact .ends limit scan certificate
  | _ => exact other trivial

theorem allows_busy {post : Post} (busy : post.Busy) {e : Eff} (apart : Apart e) :
    post.allows e := by
  cases e with
  | store q => cases q <;> first | exact Or.inl busy | exact busy
  | now => exact Or.inl busy
  | newScan | addWorker | startWorker | workerDone | waitWorkers | acquireSlot | releaseSlot
  | reportError | reportedErrors => exact apart.elim
  | _ => exact busy

end Post

section Conformance
variable (s : Service)

abbrev Keeps {α : Type} (p : Operation α) (post : Post) (Q : α → Post → Prop) : Prop :=
  Follows (fun _ _ => True) Post.allows Post.note p post Q

theorem apart_keeps {α : Type} {p : Operation α} {Q : α → Prop} (h : Calls Apart p Q) (post : Post)
    (busy : post.Busy) : Keeps p post fun a post' => post' = post ∧ Q a :=
  Silent.follows_from h (fun _ apart => Post.allows_busy busy apart)
    fun _ r apart => Post.note_apart apart r

theorem startWorkers_keeps (policy : Policy) (scan : Nat) (items : List Certificate) :
    Keeps (startWorkers policy scan items) (.looping policy.maxConcurrency scan)
      fun _ post => post = .looping policy.maxConcurrency scan := by
  induction items with
  | nil => exact rfl
  | cons item rest ih =>
    refine follows_call.mpr ⟨Or.inr trivial, fun now _ => ?_⟩
    split
    · refine follows_call.mpr ⟨⟨_, rfl⟩, fun _ _ => ?_⟩
      exact follows_call.mpr ⟨rfl, fun _ _ => ih⟩
    · exact ih

theorem scan_keeps (policy : Policy) :
    Keeps (runRenewalScan policy) (.opening policy.maxConcurrency) fun _ post => post.Over := by
  refine follows_call.mpr ⟨Or.inr trivial, fun listed _ => ?_⟩
  cases listed with
  | error err => exact trivial
  | ok values =>
    refine follows_call.mpr ⟨rfl, fun scan _ => ?_⟩
    refine (startWorkers_keeps policy scan values).bind ?_
    rintro _ _ rfl
    refine follows_call.mpr ⟨⟨_, rfl⟩, fun _ _ => ?_⟩
    refine follows_call.mpr ⟨⟨_, rfl⟩, fun errors _ => ?_⟩
    cases Error.joinAll errors <;> exact trivial

/-- A goroutine that has a slot gives it back and is done, if the service has an engine. -/
theorem worker_keeps (wired : s.engine = true) (policy : Policy) (scan : Nat) (id : Id) :
    Keeps (renewalWorker s policy scan id) (.queued policy.maxConcurrency scan id)
      fun _ post => post.Over := by
  have leave : Keeps (do
      let _ ← Prog.perform (Eff.releaseSlot scan)
      Prog.perform (Eff.workerDone scan id)) (.seated policy.maxConcurrency scan id)
      fun _ post => post.Over :=
    follows_call.mpr ⟨⟨_, _, rfl⟩, fun _ _ => ⟨⟨_, rfl⟩, fun _ _ => trivial⟩⟩
  refine follows_call.mpr ⟨⟨_, _, rfl⟩, fun acquired _ => ?_⟩
  cases acquired with
  | false => exact ⟨⟨_, rfl⟩, fun _ _ => trivial⟩
  | true =>
    refine (apart_keeps (renewalAttempts_apart s policy id policy.retryCount)
      (.seated policy.maxConcurrency scan id) trivial).bind ?_
    rintro attempts _ ⟨rfl, equipped⟩
    cases attempts with
    | panicked =>
      have missing := equipped rfl
      rw [wired] at missing
      cases missing
    | cancelled => exact leave
    | ended result =>
      cases result with
      | none => exact leave
      | some renewErr =>
        dsimp only
        split
        · exact leave
        · exact follows_call.mpr ⟨⟨_, _, rfl⟩, fun _ _ => leave⟩

theorem programOf_keeps (wired : s.engine = true) (request : Request) :
    Keeps (programOf s request) (Post.first request) fun _ post => post.Over := by
  have ordinary : Ordinary request → Post.first request = .apart →
      Keeps (programOf s request) (Post.first request) fun _ post => post.Over := by
    intro ordinary apart
    rw [apart]
    refine (apart_keeps (programOf_apart s ordinary) .apart trivial).mono ?_
    rintro _ _ ⟨rfl, -⟩
    trivial
  cases request with
  | scan policy => exact scan_keeps policy
  | worker policy scan id => exact (worker_keeps s wired policy scan id).bind fun _ _ done => done
  | _ => exact ordinary trivial rfl

end Conformance

section Effects
variable {env : Environment} {t : Nat} {w : World} {e : Eff}

theorem exec_apart (apart : Apart e) : (exec env t e w).2.scans = w.scans ∧
    (exec env t e w).2.nextScan = w.nextScan := by
  cases e with
  | file certificate e =>
    simp only [exec, execFile]
    split
    · split <;> exact ⟨rfl, rfl⟩
    · exact ⟨rfl, rfl⟩
  | loadOrStore | tryLock => simp only [exec]; split <;> exact ⟨rfl, rfl⟩
  | newScan | addWorker | startWorker | workerDone | waitWorkers | acquireSlot | releaseSlot
  | reportError | reportedErrors => exact apart.elim
  | _ => exact ⟨rfl, rfl⟩

/-- A scan that is there keeps its limit. -/
theorem exec_capacity {n : Nat} (old : n < w.nextScan) :
    ((exec env t e w).2.scans n).capacity = (w.scans n).capacity := by
  have set : ∀ (m : Nat) (scan : Scan), (m = n → scan.capacity = (w.scans m).capacity) →
      ((Function.update w.scans m scan) n).capacity = (w.scans n).capacity := by
    intro m scan kept
    by_cases same : m = n
    · subst same
      rw [Function.update_self]
      exact kept rfl
    · rw [Function.update_of_ne (Ne.symm same)]
  have other : Apart e → ((exec env t e w).2.scans n).capacity = (w.scans n).capacity := by
    intro apart
    rw [(exec_apart apart).1]
  cases e with
  | newScan capacity => exact set _ _ fun same => absurd same (Nat.ne_of_gt old)
  | addWorker | workerDone | releaseSlot | reportError => exact set _ _ fun _ => rfl
  | acquireSlot =>
    simp only [exec]
    split
    · rfl
    · exact set _ _ fun _ => rfl
  | startWorker | waitWorkers | reportedErrors => rfl
  | _ => exact other trivial

/-- The calls that a semaphore feels. -/
def UsesSlots : Eff → Prop
  | .newScan _ | .acquireSlot _ | .releaseSlot _ => True
  | _ => False

/-- The calls that a wait group feels. -/
def Counts : Eff → Prop
  | .newScan _ | .addWorker _ _ | .startWorker _ _ _ | .workerDone _ _ => True
  | _ => False

theorem exec_used {n : Nat} (unused : ¬ UsesSlots e) :
    ((exec env t e w).2.scans n).used = (w.scans n).used := by
  have other : Apart e → ((exec env t e w).2.scans n).used = (w.scans n).used := by
    intro apart
    rw [(exec_apart apart).1]
  cases e with
  | newScan | acquireSlot | releaseSlot => exact absurd trivial unused
  | addWorker scan certificate | workerDone scan certificate | reportError scan err =>
    by_cases same : n = scan
    · simp [exec, World.setScan, same]
    · simp [exec, World.setScan, same]
  | startWorker | waitWorkers | reportedErrors => rfl
  | _ => exact other trivial

theorem exec_outstanding {n : Nat} (unused : ¬ Counts e) :
    ((exec env t e w).2.scans n).outstanding = (w.scans n).outstanding := by
  have other : Apart e → ((exec env t e w).2.scans n).outstanding = (w.scans n).outstanding := by
    intro apart
    rw [(exec_apart apart).1]
  cases e with
  | newScan | addWorker | startWorker | workerDone => exact absurd trivial unused
  | releaseSlot scan | reportError scan err =>
    by_cases same : n = scan
    · simp [exec, World.setScan, same]
    · simp [exec, World.setScan, same]
  | acquireSlot scan =>
    simp only [exec]
    split
    · rfl
    · by_cases same : n = scan
      · simp [World.setScan, World.tick, same]
      · simp [World.setScan, World.tick, same]
  | waitWorkers | reportedErrors => rfl
  | _ => exact other trivial

/-- No more slots are taken than there are. -/
def Within (w : World) : Prop := ∀ n, (w.scans n).used ≤ (w.scans n).capacity

theorem Within.step (h : Within w) (able : enabled env e w = true) : Within (exec env t e w).2 := by
  have set : ∀ (m : Nat) (scan : Scan), scan.used ≤ scan.capacity →
      ∀ n, ((Function.update w.scans m scan) n).used ≤ ((Function.update w.scans m scan) n).capacity := by
    intro m scan kept n
    by_cases same : n = m
    · subst same
      rw [Function.update_self]
      exact kept
    · rw [Function.update_of_ne same]
      exact h n
  have other : Apart e → Within (exec env t e w).2 := by
    intro apart n
    rw [(exec_apart apart).1]
    exact h n
  cases e with
  | newScan capacity => exact set _ _ (Nat.zero_le _)
  | addWorker n | workerDone n | reportError n => exact set _ _ (h n)
  | releaseSlot n => exact set _ _ (Nat.le_trans (Nat.sub_le _ _) (h n))
  | acquireSlot n =>
    simp only [exec]
    split
    · exact h
    · rename_i running
      have room : (w.scans n).used < (w.scans n).capacity := by
        simpa [enabled, running] using able
      exact set _ _ room
  | startWorker | waitWorkers | reportedErrors => exact h
  | _ => exact other trivial

end Effects

/-- What a post says about its scan. -/
def Post.Placed (w : World) (post : Post) : Prop :=
  (∀ limit, post = .opening limit → 1 ≤ limit) ∧
    ∀ limit scan, post.place = some (limit, scan) →
      scan < w.nextScan ∧ (w.scans scan).capacity = limit ∧ 1 ≤ limit

/-- What a post says about the request. -/
def Post.Fits (request : Request) : Post → Prop
  | .apart => Ordinary request
  | .opening limit | .looping limit _ | .counted limit _ _ | .gathered limit _ =>
    ∃ policy, request = .scan policy ∧ limit = policy.maxConcurrency
  | .queued limit scan certificate | .seated limit scan certificate
  | .leaving limit scan certificate | .left limit scan certificate =>
    ∃ policy, request = .worker policy scan certificate ∧ limit = policy.maxConcurrency

theorem Post.fits_note {request : Request} {post : Post} (h : post.Fits request) {e : Eff}
    (r : Ans e) (allowed : post.allows e) : (post.note e r).Fits request := by
  have moved := move_note allowed r
  generalize post.note e r = post' at moved ⊢
  cases moved <;> exact h

theorem Post.fits_first (request : Request) : (Post.first request).Fits request := by
  cases request <;> first | exact ⟨_, rfl, rfl⟩ | exact trivial

namespace Post

theorem place_of_own {post : Post} {scan : Nat} (h : post.own = some scan) :
    ∃ limit, post.place = some (limit, scan) := by
  cases post <;> cases h <;> exact ⟨_, rfl⟩

theorem place_of_slot {post : Post} {scan : Nat} (h : post.slot = some scan) :
    ∃ limit, post.place = some (limit, scan) := by
  cases post with
  | seated limit => cases h; exact ⟨limit, rfl⟩
  | _ => cases h

theorem place_of_member {post : Post} {scan : Nat} {certificate : Id}
    (h : post.member = some (scan, certificate)) : ∃ limit, post.place = some (limit, scan) := by
  cases post <;> cases h <;> exact ⟨_, rfl⟩

section Moved
variable {post : Post} {e : Eff} {r : Ans e}

/-- A thread keeps its place, but for the scan that begins. -/
theorem place_note (allowed : post.allows e) : (post.note e r).place = post.place ∨
    ∃ capacity, e = .newScan capacity ∧ post = .opening capacity := by
  have moved := move_note allowed r
  generalize post.note e r = post' at moved ⊢
  cases moved with
  | opens limit scan => exact Or.inr ⟨limit, rfl, rfl⟩
  | _ => exact Or.inl rfl

/-- A thread gets a scan of its own only as it opens one. -/
theorem own_note (allowed : post.allows e) {n : Nat} (got : (post.note e r).own = some n) :
    post.own = some n ∨ ∃ capacity, e = .newScan capacity ∧ post = .opening capacity := by
  have moved := move_note allowed r
  generalize post.note e r = post' at moved got
  cases moved with
  | opens limit scan => exact Or.inr ⟨limit, rfl, rfl⟩
  | _ => exact Or.inl got

/-- A scan is opened before it has a number. -/
theorem note_opening (allowed : post.allows e) {limit : Nat}
    (opening : post.note e r = .opening limit) : post = .opening limit := by
  have moved := move_note allowed r
  rw [opening] at moved
  cases moved
  rfl

theorem slot_note (allowed : post.allows e) (unused : ¬ UsesSlots e) :
    (post.note e r).slot = post.slot := by
  have moved := move_note allowed r
  generalize post.note e r = post' at moved ⊢
  cases moved with
  | opens | seats | refused | gives => exact absurd trivial unused
  | _ => rfl

theorem member_note (allowed : post.allows e) (unused : ¬ Counts e) :
    (post.note e r).member = post.member := by
  have moved := move_note allowed r
  generalize post.note e r = post' at moved ⊢
  cases moved with
  | opens | counts | starts | ends => exact absurd trivial unused
  | _ => rfl

end Moved

theorem Placed.apart (w : World) : Placed w .apart := by
  constructor
  · intro limit none
    cases none
  · intro limit scan none
    cases none

theorem Placed.opening (w : World) {limit : Nat} (positive : 1 ≤ limit) :
    Placed w (.opening limit) := by
  constructor
  · intro limit same
    cases same
    exact positive
  · intro limit scan none
    cases none

theorem Placed.frame {env : Environment} {post : Post} {w : World} (h : post.Placed w) (t : Nat)
    (e : Eff) :
    post.Placed (exec env t e w).2 := by
  refine ⟨h.1, fun limit scan there => ?_⟩
  obtain ⟨old, capacity, positive⟩ := h.2 limit scan there
  exact ⟨Nat.lt_of_lt_of_le old Bystanders.nextScan_mono, (exec_capacity old).trans capacity, positive⟩

theorem Placed.step {env : Environment} {post : Post} {w : World} (h : post.Placed w) {t : Nat}
    {e : Eff}
    (allowed : post.allows e) :
    (post.note e (exec env t e w).1).Placed (exec env t e w).2 := by
  rcases place_note (r := (exec env t e w).1) allowed with same | ⟨capacity, rfl, rfl⟩
  · refine ⟨fun limit opening => h.1 limit (note_opening allowed opening), ?_⟩
    rw [same]
    exact (h.frame t e).2
  · constructor
    · intro limit opening
      cases opening
    intro limit scan there
    cases there
    refine ⟨Nat.lt_succ_self _, ?_, h.1 _ rfl⟩
    change (Function.update w.scans w.nextScan _ w.nextScan).capacity = _
    rw [Function.update_self]

/-- A thread from outside belongs to no scan yet. -/
theorem first_outside {request : Request} (outside : Request.external request = true) :
    Post.first request = .apart ∨
      ∃ policy, request = .scan policy ∧ Post.first request = .opening policy.maxConcurrency := by
  cases request with
  | scan policy => exact Or.inr ⟨policy, rfl, rfl⟩
  | worker => cases outside
  | _ => exact Or.inl rfl

theorem note_gathered {post : Post} {e : Eff} {r : Ans e} {limit scan : Nat}
    (allowed : post.allows e) (h : post.note e r = .gathered limit scan) :
    e = .waitWorkers scan ∨ post = .gathered limit scan ∧ ¬ Counts e := by
  have moved := move_note allowed r
  rw [h] at moved
  cases moved with
  | apart apart => exact Or.inr ⟨rfl, fun counts => by cases e <;> first | exact counts | exact apart⟩
  | waited => exact Or.inl rfl
  | reported => exact Or.inr ⟨rfl, not_false⟩

theorem queued_allows {limit scan : Nat} {certificate : Id} {e : Eff}
    (allowed : (Post.queued limit scan certificate).allows e) : e = .acquireSlot scan := by
  cases e with
  | acquireSlot n =>
    obtain ⟨_, _, same⟩ := allowed
    cases same
    rfl
  | store q => cases q <;> simp [Post.allows, Post.Busy, Post.Lists] at allowed
  | _ => simp [Post.allows, Post.Busy, Post.Lists] at allowed

theorem left_allows {limit scan : Nat} {certificate : Id} {e : Eff} :
    ¬ (Post.left limit scan certificate).allows e := by
  intro allowed
  cases e with
  | store q => cases q <;> simp [Post.allows, Post.Busy, Post.Lists] at allowed
  | _ => simp [Post.allows, Post.Busy, Post.Lists] at allowed

theorem leaving_allows {limit scan : Nat} {certificate : Id} {e : Eff}
    (allowed : (Post.leaving limit scan certificate).allows e) : e = .workerDone scan certificate := by
  cases e with
  | workerDone n id =>
    obtain ⟨_, same⟩ := allowed
    cases same
    rfl
  | store q => cases q <;> simp [Post.allows, Post.Busy, Post.Lists] at allowed
  | _ => simp [Post.allows, Post.Busy, Post.Lists] at allowed

end Post

end ScanPosts
