import CertMate.LoginLockout

/-!
# Logins one after another

`Authenticate` calls made in turn, for any clients, user names and passwords, at
times that do not decrease.
-/
namespace LoginSequence
open CallTrees LoginLimiter LoginLockout

structure Call where
  client : String
  username : String
  password : String

def fresh : World := ⟨∅, [], [], 0⟩

section Runs
variable (m : Manager) (clock : Nat → Int)

abbrev authenticated (call : Call) (w : World) : Option AuthError × World :=
  run (exec m clock) (authenticate m call.client call.username call.password) w

/-- The results of the calls, and the state after them. -/
def authenticateAll : List Call → World → List (Option AuthError) × World
  | [], w => ([], w)
  | call :: rest, w =>
    let first := authenticated m clock call w
    let others := authenticateAll rest first.2
    (first.1 :: others.1, others.2)

/-- Whom the calls that were not refused by the limiter are for. -/
def reached : List Call → List (Option AuthError) → List (String × String)
  | call :: calls, result :: results =>
    if result = some .rateLimited then reached calls results
    else (call.client, call.username) :: reached calls results
  | _, _ => []

/-- No login for the client succeeds in the interval of one lockout, and none of
its failures is dropped there. -/
structure Undisturbed (c : String) (a : Int) (w : World) : Prop where
  rejected : ∀ e ∈ w.attempts, e.client = c → e.username = m.username →
    a ≤ e.time → e.time < a + lockout → e.accepted = false
  noted : ∀ d ∈ w.dropped, d.1 = keyOf m c m.username → ¬ (a ≤ d.2 ∧ d.2 < a + lockout)

/-- The comparisons for the client and the administrator in the interval. -/
def attemptsOf (c : String) (a : Int) (w : World) : Nat :=
  w.attempts.countP fun e =>
    decide (e.client = c ∧ e.username = m.username ∧ a ≤ e.time ∧ e.time < a + lockout)

/-- Between two calls. -/
structure Settled (c : String) (a : Int) (w : World) : Prop where
  bounded : Bounded m clock (keyOf m c m.username) a 0 0 w
  short : (failuresOf (w.states.lookup (keyOf m c m.username))).length < maxFailures

end Runs

section Calls
variable {m : Manager} {clock : Nat → Int} {c : String} {a : Int} {w : World}

theorem client_of_keyOf {client : String} (h : keyOf m client m.username = keyOf m c m.username) :
    client = c := by
  simpa [keyOf] using h

/-- The states a call passes through. -/
def passed (m : Manager) (clock : Nat → Int) (call : Call) (w : World) : World :=
  (exec m clock (.allow (keyOf m call.client call.username)) w).2

def compared (m : Manager) (clock : Nat → Int) (call : Call) (w : World) : World :=
  (exec m clock (.compare call.client call.username call.password) (passed m clock call w)).2

def accepts (m : Manager) (call : Call) : Bool :=
  call.username = m.username && m.compare call.password

theorem compared_attempts (m : Manager) (clock : Nat → Int) (call : Call) (w : World) :
    (compared m clock call w).attempts =
      ⟨call.client, call.username, clock (w.calls + 1), accepts m call⟩ :: w.attempts := rfl

/-- What a call does, by what it is answered. -/
theorem authenticated_cases (m : Manager) (clock : Nat → Int) (call : Call) (w : World) :
    let key := keyOf m call.client call.username
    (allow (clock w.calls) key w.states).1 = false ∧
        authenticated m clock call w = (some .rateLimited, passed m clock call w) ∨
      (allow (clock w.calls) key w.states).1 = true ∧ accepts m call = false ∧
        authenticated m clock call w = (some .invalidCredentials,
          (exec m clock (.failure key) (compared m clock call w)).2) ∨
      (allow (clock w.calls) key w.states).1 = true ∧ accepts m call = true ∧
        authenticated m clock call w =
          (none, (exec m clock (.success key) (compared m clock call w)).2) := by
  intro key
  cases allowed : (allow (clock w.calls) key w.states).1 with
  | false =>
    have answer : (exec m clock (.allow key) w).1 = false := allowed
    refine Or.inl ⟨rfl, ?_⟩
    simp only [authenticated, authenticate, Prog.perform_bind, run_call, key] at answer ⊢
    rw [answer]
    rfl
  | true =>
    have answer : (exec m clock (.allow key) w).1 = true := allowed
    have decided : (exec m clock (.compare call.client call.username call.password)
        (passed m clock call w)).1 = accepts m call := rfl
    refine Or.inr ?_
    cases accepted : accepts m call with
    | false =>
      rw [accepted] at decided
      refine Or.inl ⟨rfl, rfl, ?_⟩
      simp only [authenticated, authenticate, Prog.perform_bind, run_call, key, passed]
        at answer decided ⊢
      rw [answer]
      simp only [Bool.not_true, Bool.false_eq_true, if_false, run_call]
      rw [decided]
      rfl
    | true =>
      rw [accepted] at decided
      refine Or.inr ⟨rfl, rfl, ?_⟩
      simp only [authenticated, authenticate, Prog.perform_bind, run_call, key, passed]
        at answer decided ⊢
      rw [answer]
      simp only [Bool.not_true, Bool.false_eq_true, if_false, run_call]
      rw [decided]
      rfl

theorem Undisturbed.before (w' : World) (attempts : w.attempts ⊆ w'.attempts)
    (dropped : w.dropped ⊆ w'.dropped) (h : Undisturbed m c a w') : Undisturbed m c a w :=
  ⟨fun e there => h.rejected e (attempts there), fun d there => h.noted d (dropped there)⟩

theorem exec_dropped (m : Manager) (clock : Nat → Int) (e : Eff) (w : World) :
    w.dropped ⊆ (exec m clock e w).2.dropped := by
  cases e with
  | failure key =>
    simp only [exec]
    split
    · exact List.Subset.refl _
    · exact List.subset_cons_self _ _
  | _ => exact List.Subset.refl _

theorem exec_attempts (m : Manager) (clock : Nat → Int) (e : Eff) (w : World) :
    w.attempts ⊆ (exec m clock e w).2.attempts := by
  cases e with
  | compare client username password => exact List.subset_cons_self _ _
  | failure key =>
    simp only [exec]
    split <;> exact List.Subset.refl _
  | _ => exact List.Subset.refl _

theorem since_le (a : Int) (o : Option AttemptState) : since a o ≤ (failuresOf o).length :=
  List.length_filter_le _ _

/-- A step of a call for another key. -/
theorem Settled.other (h : Settled m clock c a w) (steady : Monotone clock) {e : Eff}
    (away : subject e ≠ some (keyOf m c m.username))
    (elsewhere : ∀ client username password, e = .compare client username password →
      keyOf m client username ≠ keyOf m c m.username) :
    Settled m clock c a (exec m clock e w).2 := by
  have aged := exec_other m clock away w
  exact ⟨h.bounded.other steady away elsewhere, Nat.lt_of_le_of_lt aged.short h.short⟩

theorem lookup_of_failure_none {now : Int} {key : String} {states : States}
    (full : LoginLimiter.failure now key states = none) : states.lookup key = none := by
  unfold LoginLimiter.failure at full
  split at full
  · cases full
  · assumption

/-- A call for the key that passes `Allow` counts once at most until it ends. -/
theorem Settled.entered (h : Settled m clock c a w) (steady : Monotone clock) {call : Call}
    (own : keyOf m call.client call.username = keyOf m c m.username)
    (passes : (allow (clock w.calls) (keyOf m c m.username) w.states).1 = true) :
    Bounded m clock (keyOf m c m.username) a 0 1 (compared m clock call w) := by
  have few := since_le a (w.states.lookup (keyOf m c m.username))
  have short := h.short
  have entered := h.bounded.enter steady passes (by decide) fun _ => by omega
  have same : passed m clock call w = (exec m clock (.allow (keyOf m c m.username)) w).2 := by
    rw [passed, own]
  rw [compared, same]
  exact entered.compare steady own

/-- A call for the key that is rejected. -/
theorem Settled.rejected (h : Bounded m clock (keyOf m c m.username) a 0 1 w)
    (steady : Monotone clock)
    (calm : Undisturbed m c a (exec m clock (.failure (keyOf m c m.username)) w).2) :
    Settled m clock c a (exec m clock (.failure (keyOf m c m.username)) w).2 := by
  cases recorded : LoginLimiter.failure (clock w.calls) (keyOf m c m.username) w.states with
  | some states =>
    have failed := failure_own recorded
    refine ⟨h.fail steady recorded, ?_⟩
    simp only [exec, recorded]
    exact failed.short
  | none =>
    have absent := lookup_of_failure_none recorded
    have gone : (exec m clock (.failure (keyOf m c m.username)) w).2.states.lookup
        (keyOf m c m.username) = none := by
      simp only [exec, recorded]
      rw [lookup_prune, absent]
      rfl
    have there : (keyOf m c m.username, clock w.calls) ∈
        (exec m clock (.failure (keyOf m c m.username)) w).2.dropped := by
      simp only [exec, recorded]
      exact List.mem_cons_self
    have outside := calm.noted _ there rfl
    have idle : comparisons m (keyOf m c m.username) a w = 0 ∨ a + lockout ≤ clock w.calls := by
      by_cases begun : 0 < comparisons m (keyOf m c m.username) a w
      · have early := h.begun begun
        dsimp only at outside
        omega
      · omega
    have same : comparisons m (keyOf m c m.username) a
        (exec m clock (.failure (keyOf m c m.username)) w).2 =
          comparisons m (keyOf m c m.username) a w :=
      comparisons_exec (fun _ _ _ h => by cases h)
    refine ⟨h.leave steady idle (exec_calls m clock _ w) same gone, ?_⟩
    rw [gone]
    decide

/-- A call for the key that is accepted, outside the interval. -/
theorem Settled.accepted (h : Settled m clock c a w) (steady : Monotone clock) {call : Call}
    (own : keyOf m call.client call.username = keyOf m c m.username)
    (passes : (allow (clock w.calls) (keyOf m c m.username) w.states).1 = true)
    (outside : ¬ (a ≤ clock (w.calls + 1) ∧ clock (w.calls + 1) < a + lockout)) :
    Settled m clock c a
      (exec m clock (.success (keyOf m c m.username)) (compared m clock call w)).2 := by
  have within := h.entered steady own passes
  generalize reached : compared m clock call w = w' at within
  have calls : w'.calls = w.calls + 1 + 1 := by rw [← reached]; rfl
  have count : comparisons m (keyOf m c m.username) a w' =
      comparisons m (keyOf m c m.username) a w := by
    rw [← reached]
    simp only [comparisons, compared_attempts, List.countP_cons, counted, outside, and_false,
      decide_false, Bool.false_eq_true, if_false, Nat.add_zero]
  have gone : (exec m clock (.success (keyOf m c m.username)) w').2.states.lookup
      (keyOf m c m.username) = none := AList.lookup_erase _ _
  have idle : comparisons m (keyOf m c m.username) a w' = 0 ∨ a + lockout ≤ clock w'.calls := by
    have later : clock w.calls ≤ clock (w.calls + 1) := steady (by omega)
    have last : clock (w.calls + 1) ≤ clock w'.calls := steady (by omega)
    by_cases begun : 0 < comparisons m (keyOf m c m.username) a w
    · have early := h.bounded.begun begun
      omega
    · omega
  refine ⟨within.leave steady idle rfl rfl gone, ?_⟩
  rw [gone]
  decide

/-- A call for another key. -/
theorem Settled.another (h : Settled m clock c a w) (steady : Monotone clock) {call : Call}
    (other : keyOf m call.client call.username ≠ keyOf m c m.username) :
    Settled m clock c a (authenticated m clock call w).2 := by
  have away : ∀ e, subject e = some (keyOf m call.client call.username) →
      subject e ≠ some (keyOf m c m.username) := by
    intro e subject same
    rw [subject] at same
    exact other (Option.some.inj same)
  have first : Settled m clock c a (passed m clock call w) :=
    h.other steady (away (.allow _) rfl) (fun _ _ _ h => nomatch h)
  have second : Settled m clock c a (compared m clock call w) := by
    refine first.other steady (by intro h; cases h) ?_
    rintro _ _ _ ⟨⟩
    exact other
  rcases authenticated_cases m clock call w with ⟨-, run⟩ | ⟨-, -, run⟩ | ⟨-, -, run⟩
  · rw [run]
    exact first
  · rw [run]
    exact second.other steady (away (.failure _) rfl) (fun _ _ _ h => nomatch h)
  · rw [run]
    exact second.other steady (away (.success _) rfl) (fun _ _ _ h => nomatch h)

theorem Settled.call (h : Settled m clock c a w) (steady : Monotone clock) (call : Call)
    (calm : Undisturbed m c a (authenticated m clock call w).2) :
    Settled m clock c a (authenticated m clock call w).2 := by
  by_cases own : keyOf m call.client call.username = keyOf m c m.username
  · have cases_ := authenticated_cases m clock call w
    rw [own] at cases_
    rcases cases_ with ⟨refused, run⟩ | ⟨passes, -, run⟩ | ⟨passes, accepted, run⟩
    · rw [run, passed, own]
      refine ⟨h.bounded.refused steady refused, ?_⟩
      rcases allow_cases (clock w.calls) (keyOf m c m.username) w.states with ⟨-, same⟩ | ⟨yes, -⟩
      · change (failuresOf ((allow _ _ w.states).2.lookup _)).length < _
        rw [same]
        exact h.short
      · rw [refused] at yes
        cases yes
    · rw [run] at calm ⊢
      exact Settled.rejected (h.entered steady own passes) steady calm
    · rw [run] at calm ⊢
      refine h.accepted steady own passes fun inside => ?_
      have name : call.username = m.username := by
        rw [accepts, Bool.and_eq_true, decide_eq_true_eq] at accepted
        exact accepted.1
      have client : call.client = c := client_of_keyOf (name ▸ own)
      have there := exec_attempts m clock (.success (keyOf m c m.username))
        (compared m clock call w) (compared_attempts m clock call w ▸ List.mem_cons_self)
      have no := calm.rejected _ there client name inside.1 inside.2
      dsimp only at no
      rw [accepted] at no
      cases no
  · exact h.another steady own

end Calls

section Sequences
variable {m : Manager} {clock : Nat → Int} {c : String} {a : Int}

variable (m clock) in
/-- A call adds at most its own comparison to the history, and does so unless
the limiter refuses it. -/
theorem authenticated_attempts (call : Call) (w : World) :
    ((authenticated m clock call w).1 = some .rateLimited ∧
        (authenticated m clock call w).2.attempts = w.attempts) ∨
      (authenticated m clock call w).1 ≠ some .rateLimited ∧
        (authenticated m clock call w).2.attempts =
          ⟨call.client, call.username, clock (w.calls + 1), accepts m call⟩ :: w.attempts := by
  rcases authenticated_cases m clock call w with ⟨-, run⟩ | ⟨-, -, run⟩ | ⟨-, -, run⟩
  · rw [run]
    exact Or.inl ⟨rfl, rfl⟩
  · rw [run]
    refine Or.inr ⟨by simp, ?_⟩
    simp only [exec]
    split <;> rfl
  · rw [run]
    exact Or.inr ⟨by simp, rfl⟩

theorem authenticated_dropped (call : Call) (w : World) :
    w.dropped ⊆ (authenticated m clock call w).2.dropped := by
  have first : w.dropped ⊆ (compared m clock call w).dropped :=
    List.Subset.trans (exec_dropped m clock _ w) (exec_dropped m clock _ _)
  rcases authenticated_cases m clock call w with ⟨-, run⟩ | ⟨-, -, run⟩ | ⟨-, -, run⟩
  · rw [run]
    exact exec_dropped m clock _ w
  · rw [run]
    exact List.Subset.trans first (exec_dropped m clock _ _)
  · rw [run]
    exact List.Subset.trans first (exec_dropped m clock _ _)

variable (m clock) in
theorem authenticateAll_history (calls : List Call) (w : World) :
    w.attempts ⊆ (authenticateAll m clock calls w).2.attempts ∧
      w.dropped ⊆ (authenticateAll m clock calls w).2.dropped := by
  induction calls generalizing w with
  | nil => exact ⟨List.Subset.refl _, List.Subset.refl _⟩
  | cons call rest ih =>
    obtain ⟨attempts, dropped⟩ := ih (authenticated m clock call w).2
    refine ⟨List.Subset.trans ?_ attempts, List.Subset.trans (authenticated_dropped call w) dropped⟩
    rcases authenticated_attempts m clock call w with ⟨-, same⟩ | ⟨-, more⟩
    · rw [same]
      exact List.Subset.refl _
    · rw [more]
      exact List.subset_cons_self _ _

theorem authenticateAll_settled (steady : Monotone clock) (calls : List Call) (w : World)
    (h : Settled m clock c a w) (calm : Undisturbed m c a (authenticateAll m clock calls w).2) :
    Settled m clock c a (authenticateAll m clock calls w).2 := by
  induction calls generalizing w with
  | nil => exact h
  | cons call rest ih =>
    obtain ⟨attempts, dropped⟩ :=
      authenticateAll_history m clock rest (authenticated m clock call w).2
    exact ih _ (h.call steady call (calm.before _ attempts dropped)) calm

/-- The comparisons are those of the calls the limiter did not refuse, in turn. -/
theorem authenticateAll_reached (calls : List Call) (w : World) :
    (authenticateAll m clock calls w).2.attempts.reverse.map (fun e => (e.client, e.username)) =
      w.attempts.reverse.map (fun e => (e.client, e.username)) ++
        reached calls (authenticateAll m clock calls w).1 := by
  induction calls generalizing w with
  | nil => exact (List.append_nil _).symm
  | cons call rest ih =>
    have tail := ih (authenticated m clock call w).2
    simp only [authenticateAll, reached]
    rw [tail]
    rcases authenticated_attempts m clock call w with ⟨refused, same⟩ | ⟨past, more⟩
    · rw [if_pos refused, same]
    · rw [if_neg past, more]
      simp

theorem bounded_fresh {key : String} : Bounded m clock key a 0 0 fresh := by
  have empty : comparisons m key a fresh = 0 := rfl
  have absent : fresh.states.lookup key = none := rfl
  refine ⟨by omega, by decide, fun some => by omega, ?_, fun _ => ⟨by omega, Or.inr ?_⟩⟩
  · rw [absent]
    exact (fun _ h => nomatch h)
  · rw [empty, absent]
    exact ⟨Nat.zero_le _, Nat.zero_le _⟩

theorem settled_fresh : Settled m clock c a fresh := ⟨bounded_fresh, Nat.zero_lt_succ 4⟩

/-- Calls made in turn at times that do not decrease: those that the limiter
does not refuse are the ones that reach the comparison, and of the calls for a
client and the administrator at most `maxFailures` do so in the interval of one
lockout in which none of them succeeds and none of their failures is dropped
because the table is full. -/
theorem lockout_in_turn (m : Manager) (clock : Nat → Int) (steady : Monotone clock)
    (calls : List Call) :
    let answered := authenticateAll m clock calls fresh
    answered.2.attempts.reverse.map (fun e => (e.client, e.username)) = reached calls answered.1 ∧
      ∀ c a, Undisturbed m c a answered.2 → attemptsOf m c a answered.2 ≤ maxFailures := by
  refine ⟨authenticateAll_reached calls fresh, fun c a calm => ?_⟩
  have settled := authenticateAll_settled steady calls fresh settled_fresh calm
  refine Nat.le_trans (List.countP_mono_left fun e _ inside => ?_) settled.bounded.few
  obtain ⟨client, name, within⟩ := of_decide_eq_true inside
  refine decide_eq_true ⟨?_, within⟩
  rw [client, name]

end Sequences

section Flooded

/-- The password of the administrator is not empty. -/
def sample : Manager := ⟨"admin", String.toLower, fun password => decide (password = "secret")⟩

def clientOf (i : Nat) : String := String.ofList (List.replicate i 'x')

def guess (i : Nat) : Call := ⟨clientOf i, "admin", ""⟩

def still : Nat → Int := fun _ => 0

abbrev flood (n : Nat) : List Call := (List.range n).map guess

theorem lockout_in_turn_twice :
    let answered := authenticateAll sample still [guess 0, guess 0] fresh
    attemptsOf sample (clientOf 0) 0 answered.2 ≤ maxFailures :=
  (lockout_in_turn sample still (fun _ _ _ => Int.le_refl _) [guess 0, guess 0]).2 _ _
    ⟨by decide +kernel, by decide +kernel⟩

theorem clientOf_inj {i j : Nat} (h : clientOf i = clientOf j) : i = j := by
  have lists := String.ofList_injective h
  simpa using congrArg List.length lists

abbrev guessKey (i : Nat) : String := keyOf sample (clientOf i) "admin"

theorem guessKey_inj {i j : Nat} (h : guessKey i = guessKey j) : i = j :=
  clientOf_inj (client_of_keyOf (m := sample) h)

/-- The table after the first guesses of `n` clients. -/
structure Filled (n : Nat) (w : World) : Prop where
  size : w.states.entries.length = n
  keys : ∀ e ∈ w.states.entries, ∃ i < n, e.1 = guessKey i
  values : ∀ e ∈ w.states.entries, e.2 = ⟨[0], zeroTime⟩
  rejected : ∀ e ∈ w.attempts, e.accepted = false

theorem prune_of_values {states : States} (h : ∀ e ∈ states.entries, e.2 = ⟨[0], zeroTime⟩) :
    prune 0 states = states := by
  apply AList.ext
  change states.entries.filterMap (prunedEntry 0) = states.entries
  have kept : ∀ e ∈ states.entries, prunedEntry 0 e = some e := by
    rintro ⟨key, state⟩ there
    cases h _ there
    rfl
  rw [List.filterMap_congr kept]
  exact List.filterMap_some

theorem Filled.absent {n : Nat} {w : World} (h : Filled n w) :
    w.states.lookup (guessKey n) = none := by
  rw [AList.lookup_eq_none]
  intro there
  obtain ⟨e, mem, same⟩ := List.mem_map.mp there
  obtain ⟨i, less, key⟩ := h.keys e mem
  have equal := guessKey_inj (key.symm.trans same)
  omega

/-- The guess of a client without an entry reaches the comparison. -/
theorem guess_compared {n : Nat} {w : World} (absent : w.states.lookup (guessKey n) = none) :
    (compared sample still (guess n) w).states = w.states ∧
      (authenticated sample still (guess n) w).2 =
        (exec sample still (.failure (guessKey n)) (compared sample still (guess n) w)).2 := by
  have answer : allow 0 (guessKey n) w.states = (true, w.states) := by
    unfold allow
    rw [absent]
  constructor
  · change (allow 0 (guessKey n) w.states).2 = w.states
    rw [answer]
  · rcases authenticated_cases sample still (guess n) w with
      ⟨refused, -⟩ | ⟨-, -, run⟩ | ⟨-, yes, -⟩
    · change (allow 0 (guessKey n) w.states).1 = false at refused
      rw [answer] at refused
      cases refused
    · rw [run]
      rfl
    · have no : accepts sample (guess n) = false := rfl
      rw [no] at yes
      cases yes

theorem compared_rejected {n : Nat} {w : World} (h : ∀ e ∈ w.attempts, e.accepted = false) :
    ∀ e ∈ (compared sample still (guess n) w).attempts, e.accepted = false := by
  rw [compared_attempts]
  exact List.forall_mem_cons.mpr ⟨rfl, h⟩

theorem Filled.next {n : Nat} {w : World} (h : Filled n w) (room : n < maxStates) :
    Filled (n + 1) (authenticated sample still (guess n) w).2 := by
  have absent := h.absent
  obtain ⟨same, run⟩ := guess_compared absent
  have unpruned := prune_of_values h.values
  have free : ¬ maxStates ≤ w.states.entries.length := by
    rw [h.size]
    omega
  have recorded : LoginLimiter.failure 0 (guessKey n) (compared sample still (guess n) w).states =
      some (w.states.insert (guessKey n) ⟨[0], zeroTime⟩) := by
    rw [same]
    simp only [LoginLimiter.failure, absent, unpruned, if_neg free]
    rfl
  have final : (exec sample still (.failure (guessKey n)) (compared sample still (guess n) w)).2 =
      { (compared sample still (guess n) w).tick with
        states := w.states.insert (guessKey n) ⟨[0], zeroTime⟩ } := by
    have time : ∀ i, still i = 0 := fun _ => rfl
    simp only [exec, time, recorded]
  have entries : (w.states.insert (guessKey n) ⟨[0], zeroTime⟩).entries =
      ⟨guessKey n, ⟨[0], zeroTime⟩⟩ :: w.states.entries :=
    AList.entries_insert_of_notMem (AList.lookup_eq_none.mp absent)
  rw [run, final]
  refine ⟨?_, ?_, ?_, compared_rejected h.rejected⟩
  · change (w.states.insert _ _).entries.length = _
    rw [entries, List.length_cons, h.size]
  · change ∀ e ∈ (w.states.insert _ _).entries, _
    rw [entries]
    refine List.forall_mem_cons.mpr ⟨⟨n, by omega, rfl⟩, fun e there => ?_⟩
    obtain ⟨i, less, key⟩ := h.keys e there
    exact ⟨i, by omega, key⟩
  · change ∀ e ∈ (w.states.insert _ _).entries, _
    rw [entries]
    exact List.forall_mem_cons.mpr ⟨rfl, h.values⟩

/-- With the table full, a new client is compared and nothing is recorded. -/
theorem Filled.unrecorded {w : World} (h : Filled maxStates w) :
    Filled maxStates (authenticated sample still (guess maxStates) w).2 ∧
      (authenticated sample still (guess maxStates) w).2.attempts =
        ⟨clientOf maxStates, "admin", 0, false⟩ :: w.attempts := by
  have absent := h.absent
  obtain ⟨same, run⟩ := guess_compared absent
  have unpruned := prune_of_values h.values
  have full : maxStates ≤ w.states.entries.length := by rw [h.size]
  have dropped : LoginLimiter.failure 0 (guessKey maxStates)
      (compared sample still (guess maxStates) w).states = none := by
    rw [same]
    simp only [LoginLimiter.failure, absent, unpruned, if_pos full]
  have final : (exec sample still (.failure (guessKey maxStates))
      (compared sample still (guess maxStates) w)).2 =
      { (compared sample still (guess maxStates) w).tick with
        states := w.states
        dropped := (guessKey maxStates, 0) ::
          (compared sample still (guess maxStates) w).dropped } := by
    have time : ∀ i, still i = 0 := fun _ => rfl
    simp only [exec, time, dropped]
    rw [same, unpruned]
  rw [run, final]
  exact ⟨⟨h.size, h.keys, h.values, compared_rejected h.rejected⟩,
    compared_attempts sample still (guess maxStates) w⟩

theorem authenticateAll_append (m : Manager) (clock : Nat → Int) (calls more : List Call)
    (w : World) : (authenticateAll m clock (calls ++ more) w).2 =
      (authenticateAll m clock more (authenticateAll m clock calls w).2).2 := by
  induction calls generalizing w with
  | nil => rfl
  | cons call rest ih => exact ih _

theorem flood_filled (n : Nat) (room : n ≤ maxStates) :
    Filled n (authenticateAll sample still (flood n) fresh).2 := by
  induction n with
  | zero => exact ⟨rfl, (fun _ h => nomatch h), (fun _ h => nomatch h), (fun _ h => nomatch h)⟩
  | succ n ih =>
    rw [flood, List.range_succ, List.map_append, authenticateAll_append]
    exact (ih (by omega)).next (by omega)

/-- The full table stays as it is, and each guess of the new client counts. -/
theorem full_repeated (n : Nat) {w : World} (h : Filled maxStates w) :
    let final := (authenticateAll sample still (List.replicate n (guess maxStates)) w).2
    Filled maxStates final ∧ n ≤ attemptsOf sample (clientOf maxStates) 0 final := by
  induction n generalizing w with
  | zero => exact ⟨h, Nat.zero_le _⟩
  | succ n ih =>
    rw [List.replicate_succ', authenticateAll_append]
    obtain ⟨filled, count⟩ := ih h
    obtain ⟨again, attempts⟩ := filled.unrecorded
    refine ⟨again, ?_⟩
    change n + 1 ≤ attemptsOf _ _ _ (authenticated sample still (guess maxStates) _).2
    rw [attemptsOf, attempts, List.countP_cons,
      if_pos (decide_eq_true ⟨rfl, rfl, by decide, by decide⟩)]
    exact Nat.succ_le_succ count

/-- Once as many clients as the table holds have failed once each, one more
client is compared six times within a lockout, all in vain. -/
theorem lockout_flooded :
    let answered := authenticateAll sample still
      (flood maxStates ++ List.replicate 6 (guess maxStates)) fresh
    (∀ e ∈ answered.2.attempts, e.accepted = false) ∧
      maxFailures < attemptsOf sample (clientOf maxStates) 0 answered.2 := by
  intro answered
  have split_ : answered.2 = (authenticateAll sample still (List.replicate 6 (guess maxStates))
      (authenticateAll sample still (flood maxStates) fresh).2).2 := authenticateAll_append ..
  obtain ⟨filled, count⟩ := full_repeated 6 (flood_filled maxStates (Nat.le_refl _))
  rw [split_]
  exact ⟨filled.rejected, count⟩

end Flooded

end LoginSequence
