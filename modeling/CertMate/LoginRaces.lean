import CertMate.LoginSequence
import CertMate.ThreadPools

/-!
# Logins side by side

Any number of `Authenticate` calls, their steps in any order. The bound on the
comparisons for a key holds as long as `Allow` lets no more calls pass than the
recorded failures and the calls under way leave room for.
-/
namespace LoginRaces
open CallTrees ThreadPools LoginLimiter LoginLockout

/-- Where a call stands. -/
inductive Phase where
  | idle
  | allowed (key : String)
  | compared (key : String)
  deriving DecidableEq, Repr

/-- The state, and the threads that are past `Allow` and past the comparison for
the key that is watched. -/
structure Watched where
  world : World
  waiting : List Nat
  comparing : List Nat

section Pool
variable (m : Manager) (clock : Nat → Int) (key : String)

/-- What a call of thread `t` makes of the two lists. -/
def enrol (t : Nat) (w : Watched) : (e : Eff) → Ans e → List Nat × List Nat
  | .allow k, passes =>
    (if k = key ∧ passes = true then t :: w.waiting else w.waiting, w.comparing)
  | .compare client username _, _ =>
    if keyOf m client username = key then (w.waiting.erase t, t :: w.comparing)
    else (w.waiting, w.comparing)
  | .failure k, _ | .success k, _ =>
    (w.waiting, if k = key then w.comparing.erase t else w.comparing)

def watch (t : Nat) (e : Eff) (w : Watched) : Ans e × Watched :=
  let lists := enrol m key t w e (exec m clock e w.world).1
  ((exec m clock e w.world).1, ⟨(exec m clock e w.world).2, lists.1, lists.2⟩)

def note : Phase → (e : Eff) → Ans e → Phase
  | _, .allow k, passes => if passes = true then .allowed k else .idle
  | _, .compare client username _, _ => .compared (keyOf m client username)
  | _, _, _ => .idle

def allows : Phase → Eff → Prop
  | phase, .allow _ => phase = .idle
  | phase, .compare client username _ => phase = .allowed (keyOf m client username)
  | phase, .failure k => phase = .compared k
  | phase, .success k => phase = .compared k

abbrev Configuration := Config Eff Ans Watched Phase (Option AuthError)

def pool : System Eff Ans Watched Phase (Option AuthError) where
  exec := watch m clock key
  enabled _ _ _ := true
  note := note m
  spawn _ _ := none
  starts th := ∃ client username password, th = ⟨authenticate m client username password, .idle⟩
  restart := id

/-- The table has an entry of the key or room for one. -/
def Roomy (now : Int) (states : States) : Prop :=
  states.lookup key ≠ none ∨ (prune now states).entries.length < maxStates

/-- No call for the key succeeds, and none finds the table full. -/
def vain : Discipline Eff Ans Watched Phase (Option AuthError) where
  start _ _ := True
  call c _ e :=
    match e with
    | .failure k => k = key → Roomy key (clock c.world.world.calls) c.world.world.states
    | .success k => k ≠ key
    | _ => True
  crash _ := False

/-- Where the key is not locked there is room for one more call: the failures
recorded within the last lockout and the calls past `Allow` are too few. -/
def Spaced (w : Watched) : Prop :=
  let now := clock w.world.calls
  (∀ state ∈ w.world.states.lookup key, ¬ now < state.lockedUntil) →
    since (now - lockout + 1) (w.world.states.lookup key) + w.waiting.length +
      w.comparing.length < maxFailures

/-- The calls for the key are `Spaced` besides. -/
def spaced : Discipline Eff Ans Watched Phase (Option AuthError) where
  start _ _ := True
  call c t e := (vain clock key).call c t e ∧ (e = .allow key → Spaced clock key c.world)
  crash _ := False

end Pool

section Protocol
variable {m : Manager} {clock : Nat → Int} {key : String}

theorem authenticate_follows (client username password : String) :
    Follows (fun _ _ => True) (allows m) (note m) (authenticate m client username password) .idle
      fun _ _ => True := by
  refine follows_call.mpr ⟨rfl, fun passes _ => ?_⟩
  cases passes with
  | false => trivial
  | true =>
    refine follows_call.mpr ⟨rfl, fun accepted _ => ?_⟩
    cases accepted with
    | false => exact follows_call.mpr ⟨rfl, fun _ _ => trivial⟩
    | true => exact follows_call.mpr ⟨rfl, fun _ _ => trivial⟩

abbrev Protocol (m : Manager) (clock : Nat → Int) (key : String) :=
  conforming (pool m clock key) (fun _ _ => True) (allows m) fun _ _ => True

theorem protocol_stable {D : Discipline Eff Ans Watched Phase (Option AuthError)} :
    (Protocol m clock key).Stable (pool m clock key) D fun _ => True := by
  refine conforming_stable (fun _ _ _ => trivial) ?_ (fun _ _ _ h => nomatch h)
  rintro _ ⟨client, username, password, rfl⟩
  exact authenticate_follows client username password

/-- The bound, with each call under way on its list. -/
def guarded (m : Manager) (clock : Nat → Int) (key : String) :
    Assertion Eff Ans Watched Phase (Option AuthError) where
  world w := ∀ a, Bounded m clock key a w.waiting.length w.comparing.length w.world
  thread t th w := (th.seen = .allowed key → t ∈ w.waiting) ∧
    (th.seen = .compared key → t ∈ w.comparing)

theorem since_antitone {a b : Int} (h : a ≤ b) (o : Option AttemptState) :
    since b o ≤ since a o := by
  refine List.Sublist.length_le (List.monotone_filter_right _ fun t late => ?_)
  have late' : b ≤ t := of_decide_eq_true late
  exact decide_eq_true (by omega)

/-- A key that passes is not locked. -/
theorem unlocked_of_allow {now : Int} {states : States} (passes : (allow now key states).1 = true) :
    ∀ state ∈ states.lookup key, ¬ now < state.lockedUntil := by
  intro state there held
  have found : states.lookup key = some state := there
  simp only [allow, found, if_pos held] at passes
  cases passes

/-- A failure that finds an entry or room is recorded. -/
theorem recorded_of_roomy {now : Int} {states : States} (h : Roomy key now states) :
    ∃ states', LoginLimiter.failure now key states = some states' := by
  unfold LoginLimiter.failure
  cases found : states.lookup key with
  | some state => exact ⟨_, rfl⟩
  | none =>
    rcases h with there | room
    · exact absurd found there
    · exact ⟨_, if_neg (by omega)⟩

variable {t : Nat} {w : Watched} {phase : Phase}

theorem bounded_own (steady : Monotone clock) {e : Eff} (allowed : allows m phase e)
    (bounded : ∀ a, Bounded m clock key a w.waiting.length w.comparing.length w.world)
    (waits : phase = .allowed key → t ∈ w.waiting)
    (compares : phase = .compared key → t ∈ w.comparing)
    (roomy : e = .failure key → Roomy key (clock w.world.calls) w.world.states)
    (vain : e ≠ .success key) (space : e = .allow key → Spaced clock key w) (a : Int) :
    Bounded m clock key a (watch m clock key t e w).2.waiting.length
      (watch m clock key t e w).2.comparing.length (watch m clock key t e w).2.world := by
  have before := bounded a
  have crowd := before.crowd
  cases e with
  | allow k =>
    by_cases own : k = key
    · subst own
      cases passes : (allow (clock w.world.calls) k w.world.states).1 with
      | false =>
        have answer : (exec m clock (.allow k) w.world).1 = false := passes
        simp only [watch, enrol, answer, Bool.false_eq_true, and_false, if_false]
        exact before.refused steady passes
      | true =>
        have answer : (exec m clock (.allow k) w.world).1 = true := passes
        simp only [watch, enrol, answer, and_self, if_true]
        have free := space rfl (unlocked_of_allow passes)
        refine before.enter steady passes (by omega) fun inside => ?_
        have fewer := since_antitone (a := clock w.world.calls - lockout + 1) (b := a)
          (by omega) (w.world.states.lookup k)
        omega
    · simp only [watch, enrol, own, false_and, if_false]
      exact before.other steady (fun h => own (Option.some.inj h)) (fun _ _ _ h => nomatch h)
  | compare client username password =>
    by_cases own : keyOf m client username = key
    · have there := waits (allowed.trans (congrArg Phase.allowed own))
      have length := List.length_erase_of_mem there
      have some := List.length_pos_of_mem there
      simp only [watch, enrol, own, if_true, List.length_cons, length]
      have waiting : w.waiting.length = w.waiting.length - 1 + 1 := by omega
      rw [waiting] at before
      exact before.compare steady own
    · simp only [watch, enrol, own, if_false]
      refine before.other steady (by intro h; cases h) ?_
      rintro _ _ _ ⟨⟩
      exact own
  | failure k =>
    by_cases own : k = key
    · subst own
      have there := compares allowed
      have length := List.length_erase_of_mem there
      have some := List.length_pos_of_mem there
      obtain ⟨states, recorded⟩ := recorded_of_roomy (roomy rfl)
      simp only [watch, enrol, if_true, length]
      have comparing : w.comparing.length = w.comparing.length - 1 + 1 := by omega
      rw [comparing] at before
      exact before.fail steady recorded
    · simp only [watch, enrol, own, if_false]
      exact before.other steady (fun h => own (Option.some.inj h)) (fun _ _ _ h => nomatch h)
  | success k =>
    have own : k ≠ key := fun h => vain (congrArg Eff.success h)
    simp only [watch, enrol, own, if_false]
    exact before.other steady (fun h => own (Option.some.inj h)) (fun _ _ _ h => nomatch h)

theorem enrolled_own {e : Eff} {r : Ans e} :
    (note m phase e r = .allowed key → t ∈ (enrol m key t w e r).1) ∧
      (note m phase e r = .compared key → t ∈ (enrol m key t w e r).2) := by
  cases e with
  | allow k =>
    constructor
    · intro passed
      cases r with
      | false => cases passed
      | true =>
        cases passed
        simp only [enrol, and_self, if_true]
        exact List.mem_cons_self
    · intro compared
      cases r <;> cases compared
  | compare client username password =>
    refine ⟨(fun passed => nomatch passed), fun compared => ?_⟩
    have own : keyOf m client username = key := Phase.compared.inj compared
    simp only [enrol, own, if_true]
    exact List.mem_cons_self
  | failure k | success k => exact ⟨(fun h => nomatch h), (fun h => nomatch h)⟩

theorem enrolled_other {u : Nat} (away : u ≠ t) {e : Eff} {r : Ans e} :
    (u ∈ w.waiting → u ∈ (enrol m key t w e r).1) ∧
      (u ∈ w.comparing → u ∈ (enrol m key t w e r).2) := by
  cases e with
  | allow k =>
    refine ⟨fun there => ?_, fun there => there⟩
    simp only [enrol]
    split
    · exact List.mem_cons_of_mem _ there
    · exact there
  | compare client username password =>
    simp only [enrol]
    split
    · exact ⟨(List.mem_erase_of_ne away).mpr, List.mem_cons_of_mem _⟩
    · exact ⟨fun there => there, fun there => there⟩
  | failure k | success k =>
    refine ⟨fun there => there, fun there => ?_⟩
    simp only [enrol]
    split
    · exact (List.mem_erase_of_ne away).mpr there
    · exact there

theorem guarded_stable (steady : Monotone clock) :
    (guarded m clock key).Stable (pool m clock key) (spaced clock key)
      (Protocol m clock key).Holds where
  own c t e k phase known holds running _ ok := by
    have allowed := allowed_of_conforming known running
    obtain ⟨waits, compares⟩ := holds.thread t _ running
    refine ⟨?_, enrolled_own⟩
    refine bounded_own steady allowed holds.world waits compares (fun failing => ?_) ?_ ok.2
    · subst failing
      exact ok.1 rfl
    · rintro rfl
      exact ok.1 rfl
  other _ t _ _ _ u _ _ holds _ _ _ away there := by
    obtain ⟨waits, compares⟩ := holds.thread u _ there
    obtain ⟨waiting, comparing⟩ := enrolled_other away
    exact ⟨fun passed => waiting (waits passed), fun compared => comparing (compares compared)⟩
  start _ _ _ _ _ _ started _ := by
    obtain ⟨client, username, password, rfl⟩ := started
    exact ⟨(fun h => nomatch h), (fun h => nomatch h)⟩
  spawn _ _ _ _ _ _ _ _ _ _ h _ _ := nomatch h
  crash _ _ _ h := h.elim

end Protocol

def fresh : Watched := ⟨LoginSequence.fresh, [], []⟩

/-- Calls side by side that are all in vain, none of them let past `Allow`
without room for it: in the interval of any lockout at most `maxFailures` of them
are compared. -/
theorem lockout_side_by_side {m : Manager} {clock : Nat → Int} (steady : Monotone clock)
    {key : String} {c : Configuration}
    (run : Reach (pool m clock key) (spaced clock key) (.crowd fresh []) c) (a : Int) :
    comparisons m key a c.world.world ≤ maxFailures := by
  have known : (Protocol m clock key).Holds (.crowd fresh []) :=
    ⟨trivial, fun _ _ h => nomatch h⟩
  have bounded : (guarded m clock key).Holds (.crowd fresh []) :=
    ⟨fun _ => LoginSequence.bounded_fresh, fun _ _ h => nomatch h⟩
  obtain ⟨-, holds⟩ := (guarded_stable steady).reach
    (fun _ _ known hs => protocol_stable.step trivial known hs) run known bounded
  exact (holds.world a).few

section Schedules
open LoginSequence (sample still guess guessKey)

instance (key : String) (now : Int) (states : States) : Decidable (Roomy key now states) :=
  inferInstanceAs (Decidable (_ ∨ _))

instance (clock : Nat → Int) (key : String) (w : Watched) : Decidable (Spaced clock key w) :=
  inferInstanceAs (Decidable ((∀ state ∈ w.world.states.lookup key,
    ¬ clock w.world.calls < state.lockedUntil) → _ < maxFailures))

def attempt (i : Nat) : Thread Eff Ans Phase (Option AuthError) :=
  ⟨authenticate sample (guess i).client (guess i).username (guess i).password, .idle⟩

def keepsPace (clock : Nat → Int) (key : String) (c : Configuration) (_ : Nat) : Eff → Bool
  | .allow k => decide (k = key → Spaced clock key c.world)
  | .compare _ _ _ => true
  | .failure k => decide (k = key → Roomy key (clock c.world.world.calls) c.world.world.states)
  | .success k => decide (k ≠ key)

theorem spaced_of {clock : Nat → Int} {key : String} {c : Configuration} {t : Nat} {e : Eff}
    (h : keepsPace clock key c t e = true) : (spaced clock key).call c t e := by
  cases e with
  | allow k =>
    refine ⟨trivial, ?_⟩
    rintro ⟨⟩
    exact of_decide_eq_true h rfl
  | compare client username password => exact ⟨trivial, (fun h => nomatch h)⟩
  | failure k =>
    have room : k = key → Roomy key _ _ := of_decide_eq_true h
    exact ⟨room, (fun h => nomatch h)⟩
  | success k =>
    have other : k ≠ key := of_decide_eq_true h
    exact ⟨other, (fun h => nomatch h)⟩

theorem attempts_reach {D : Discipline Eff Ans Watched Phase (Option AuthError)}
    (ok : ∀ c th, D.start c th) (n : Nat) :
    Reach (pool sample still (guessKey 0)) D (.crowd fresh [])
      (.crowd fresh (List.replicate n (attempt 0))) :=
  crowd_reach ok _ _ fun _ there => (List.eq_of_mem_replicate there).symm ▸ ⟨_, _, _, rfl⟩

theorem lockout_side_by_side_two :
    ∃ c : Configuration, comparisons sample (guessKey 0) 0 c.world.world = 2 ∧
      comparisons sample (guessKey 0) 0 c.world.world ≤ maxFailures := by
  have played : ((pool sample still (guessKey 0)).play (keepsPace still (guessKey 0))
      [0, 1, 1, 0, 0, 1] (.crowd fresh (List.replicate 2 (attempt 0)))).map
        (fun c => comparisons sample (guessKey 0) 0 c.world.world) = some 2 := by
    decide +kernel
  obtain ⟨c, schedule, count⟩ := Option.map_eq_some_iff.mp played
  have run := play_reach (D := spaced still (guessKey 0)) (fun _ _ _ => spaced_of) schedule
  exact ⟨c, count, lockout_side_by_side (fun _ _ _ => Int.le_refl _)
    ((attempts_reach (fun _ _ => trivial) 2).trans run) 0⟩

/-- The calls before a failure is recorded. -/
def early : Eff → Bool
  | .allow _ | .compare _ _ _ => true
  | _ => false

/-- Six calls pass `Allow` before the first of them has failed. -/
theorem lockout_overrun : ¬ ∀ (m : Manager) (clock : Nat → Int) (key : String) (c : Configuration),
    Monotone clock → Reach (pool m clock key) (vain clock key) (.crowd fresh []) c →
    ∀ a, comparisons m key a c.world.world ≤ maxFailures := by
  intro claim
  have played : ((pool sample still (guessKey 0)).play (fun _ _ e => early e)
      [0, 1, 2, 3, 4, 5, 0, 1, 2, 3, 4, 5] (.crowd fresh (List.replicate 6 (attempt 0)))).map
        (fun c => comparisons sample (guessKey 0) 0 c.world.world) = some 6 := by
    decide +kernel
  obtain ⟨c, schedule, count⟩ := Option.map_eq_some_iff.mp played
  have run : Reach (pool sample still (guessKey 0)) (vain still (guessKey 0))
      (.crowd fresh (List.replicate 6 (attempt 0))) c := by
    refine play_reach (fun c t e ok => ?_) schedule
    cases e with
    | allow k => trivial
    | compare client username password => trivial
    | failure k => cases ok
    | success k => cases ok
  have few := claim sample still (guessKey 0) c (fun _ _ _ => Int.le_refl _)
    ((attempts_reach (fun _ _ => trivial) 6).trans run) 0
  rw [count] at few
  exact absurd few (by decide)

end Schedules

end LoginRaces
