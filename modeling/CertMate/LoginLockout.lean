import CertMate.LoginLimiter

/-!
# How many comparisons a key gets

Within one lockout a key reaches the comparison of the password at most
`maxFailures` times, as long as its failures are recorded.
-/
namespace LoginLockout
open CallTrees LoginLimiter

/-- A comparison for the key in the interval of one lockout that begins at `a`. -/
def counted (m : Manager) (key : String) (a : Int) (e : Attempt) : Bool :=
  decide (keyOf m e.client e.username = key ∧ a ≤ e.time ∧ e.time < a + lockout)

def comparisons (m : Manager) (key : String) (a : Int) (w : World) : Nat :=
  w.attempts.countP (counted m key a)

/-- With so many calls past `Allow` and so many past the comparison, the key has
room for no more comparisons than are left, or is locked. -/
structure Bounded (m : Manager) (clock : Nat → Int) (key : String) (a : Int)
    (waiting comparing : Nat) (w : World) : Prop where
  few : comparisons m key a w ≤ maxFailures
  crowd : waiting + comparing ≤ maxFailures
  begun : 0 < comparisons m key a w → a ≤ clock w.calls
  stamped : ∀ t ∈ failuresOf (w.states.lookup key), t ≤ clock w.calls
  room : clock w.calls < a + lockout → comparisons m key a w + waiting ≤ maxFailures ∧
    (Locked a (w.states.lookup key) ∨
      comparisons m key a w ≤ since a (w.states.lookup key) + comparing ∧
        since a (w.states.lookup key) + waiting + comparing ≤ maxFailures)

theorem lockout_le_window : lockout ≤ window := by decide

section Effects
variable {m : Manager} {clock : Nat → Int} {key : String} {a : Int} {waiting comparing : Nat}
  {w : World}

theorem exec_calls (m : Manager) (clock : Nat → Int) (e : Eff) (w : World) :
    (exec m clock e w).2.calls = w.calls + 1 := by
  cases e with
  | failure key =>
    simp only [exec]
    split <;> rfl
  | _ => rfl

theorem comparisons_exec {e : Eff}
    (away : ∀ client username password, e = .compare client username password →
      keyOf m client username ≠ key) :
    comparisons m key a (exec m clock e w).2 = comparisons m key a w := by
  cases e with
  | compare client username password =>
    have other := away client username password rfl
    simp only [comparisons, exec, World.tick, List.countP_cons, counted, other, false_and,
      decide_false, Bool.false_eq_true, if_false, Nat.add_zero]
  | failure key =>
    simp only [exec]
    split <;> rfl
  | _ => rfl

theorem since_eq_zero {o : Option AttemptState} (early : ∀ t ∈ failuresOf o, t < a) :
    since a o = 0 := by
  rw [since, List.length_eq_zero_iff, List.filter_eq_nil_iff]
  intro t there
  have before := early t there
  simp only [decide_eq_true_eq]
  omega

/-- What leaves the history alone and lets the entry grow older. -/
theorem Bounded.aged (h : Bounded m clock key a waiting comparing w) (steady : Monotone clock)
    {w' : World} (calls : w'.calls = w.calls + 1)
    (attempts : comparisons m key a w' = comparisons m key a w)
    (aged : Aged (clock w.calls) (w.states.lookup key) (w'.states.lookup key)) :
    Bounded m clock key a waiting comparing w' := by
  have later : clock w.calls ≤ clock w'.calls := steady (by omega)
  have wider := lockout_le_window
  refine ⟨attempts ▸ h.few, h.crowd, fun some => ?_, fun t there => ?_, fun before => ?_⟩
  · have early := h.begun (attempts ▸ some)
    omega
  · have early := h.stamped t (aged.old t there)
    omega
  · have open_ : clock w.calls < a + lockout := by omega
    obtain ⟨left, rest⟩ := h.room open_
    rw [attempts, aged.kept a (by omega)]
    refine ⟨left, ?_⟩
    rcases rest with locked | rest
    · exact Or.inl (aged.locked a open_ locked)
    · exact Or.inr rest

/-- A step of a call for another key. -/
theorem Bounded.other (h : Bounded m clock key a waiting comparing w) (steady : Monotone clock)
    {e : Eff} (away : subject e ≠ some key)
    (elsewhere : ∀ client username password, e = .compare client username password →
      keyOf m client username ≠ key) :
    Bounded m clock key a waiting comparing (exec m clock e w).2 :=
  h.aged steady (exec_calls m clock e w) (comparisons_exec elsewhere) (exec_other m clock away w)

/-- A call that passes `Allow` while there is room for one more. -/
theorem Bounded.enter (h : Bounded m clock key a waiting comparing w) (steady : Monotone clock)
    (passes : (allow (clock w.calls) key w.states).1 = true)
    (crowd : waiting + comparing < maxFailures)
    (room : clock w.calls < a + lockout →
      since a (w.states.lookup key) + waiting + comparing < maxFailures) :
    Bounded m clock key a (waiting + 1) comparing (exec m clock (.allow key) w).2 := by
  rcases allow_cases (clock w.calls) key w.states with ⟨refused, -⟩ | ⟨-, unlocked, aged⟩
  · rw [passes] at refused
    cases refused
  · have next : Bounded m clock key a waiting comparing (exec m clock (.allow key) w).2 :=
      h.aged steady rfl rfl aged
    have later : clock w.calls ≤ clock (w.calls + 1) := steady (by omega)
    have wider := lockout_le_window
    refine ⟨next.few, by omega, next.begun, next.stamped, fun before => ?_⟩
    have before' : clock (w.calls + 1) < a + lockout := before
    have open_ : clock w.calls < a + lockout := by omega
    obtain ⟨left, rest⟩ := h.room open_
    have free := room open_
    have same : since a ((exec m clock (.allow key) w).2.states.lookup key) =
        since a (w.states.lookup key) := aged.kept a (by omega)
    have count : comparisons m key a (exec m clock (.allow key) w).2 = comparisons m key a w := rfl
    rw [same, count]
    rcases rest with locked | ⟨covered, -⟩
    · exact absurd locked (unlocked a open_)
    · exact ⟨by omega, Or.inr ⟨covered, by omega⟩⟩

theorem Bounded.refused (h : Bounded m clock key a waiting comparing w) (steady : Monotone clock)
    (refused : (allow (clock w.calls) key w.states).1 = false) :
    Bounded m clock key a waiting comparing (exec m clock (.allow key) w).2 := by
  rcases allow_cases (clock w.calls) key w.states with ⟨-, same⟩ | ⟨passes, -⟩
  · refine h.aged steady rfl rfl ?_
    change Aged _ _ ((allow (clock w.calls) key w.states).2.lookup key)
    rw [same]
    exact Aged.refl _ _
  · rw [passes] at refused
    cases refused

/-- The comparison of a call that has passed `Allow`. -/
theorem Bounded.compare (h : Bounded m clock key a (waiting + 1) comparing w)
    (steady : Monotone clock) {client username password : String}
    (own : keyOf m client username = key) :
    Bounded m clock key a waiting (comparing + 1)
      (exec m clock (.compare client username password) w).2 := by
  have later : clock w.calls ≤ clock (w.calls + 1) := steady (by omega)
  have crowd := h.crowd
  have few := h.few
  have begun := h.begun
  have room := h.room
  have count : comparisons m key a (exec m clock (.compare client username password) w).2 =
      comparisons m key a w + if a ≤ clock w.calls ∧ clock w.calls < a + lockout then 1 else 0 := by
    simp only [comparisons, exec, World.tick, List.countP_cons, counted, own, true_and,
      decide_eq_true_eq]
  refine ⟨?_, by omega, ?_, fun t there => ?_, fun before => ?_⟩
  · rw [count]
    split <;> omega
  · rw [count]
    intro some
    change a ≤ clock (w.calls + 1)
    split at some <;> omega
  · have early := h.stamped t there
    change t ≤ clock (w.calls + 1)
    omega
  · change clock (w.calls + 1) < a + lockout at before
    have open_ : clock w.calls < a + lockout := by omega
    obtain ⟨left, rest⟩ := room open_
    rw [count]
    change _ ∧ (Locked a (w.states.lookup key) ∨
      _ ≤ since a (w.states.lookup key) + (comparing + 1) ∧
        since a (w.states.lookup key) + waiting + (comparing + 1) ≤ maxFailures)
    constructor
    · split <;> omega
    · rcases rest with locked | ⟨covered, fits⟩
      · exact Or.inl locked
      · refine Or.inr ⟨?_, by omega⟩
        split <;> omega

/-- The failure of a call that has made its comparison is recorded. -/
theorem Bounded.fail (h : Bounded m clock key a waiting (comparing + 1) w) (steady : Monotone clock)
    {states : States} (recorded : failure (clock w.calls) key w.states = some states) :
    Bounded m clock key a waiting comparing (exec m clock (.failure key) w).2 := by
  have failed := failure_own recorded
  have later : clock w.calls ≤ clock (w.calls + 1) := steady (by omega)
  have wider := lockout_le_window
  have crowd := h.crowd
  have after : (exec m clock (.failure key) w).2 = { w.tick with states := states } := by
    simp only [exec, recorded]
  rw [after]
  refine ⟨h.few, by omega, fun some => ?_, fun t there => ?_, fun before => ?_⟩
  · have early := h.begun some
    change a ≤ clock (w.calls + 1)
    omega
  · change t ≤ clock (w.calls + 1)
    rcases failed.old t there with there | rfl
    · have early := h.stamped t there
      omega
    · exact later
  · have before' : clock (w.calls + 1) < a + lockout := before
    obtain ⟨left, rest⟩ := h.room (by omega)
    refine ⟨left, ?_⟩
    change Locked a (states.lookup key) ∨ comparisons m key a w ≤ _ ∧ _
    by_cases started : a ≤ clock w.calls
    · rcases rest with locked | ⟨covered, fits⟩
      · exact Or.inl (failed.locked a started locked)
      · rcases failed.counted a started (by omega) with locked | more
        · exact Or.inl locked
        · change _ ∨ comparisons m key a w ≤ since a (states.lookup key) + comparing ∧
            since a (states.lookup key) + waiting + comparing ≤ maxFailures
          rw [more]
          exact Or.inr ⟨by omega, by omega⟩
    · -- before the interval nothing counts
      have none : comparisons m key a w = 0 := by
        by_contra some
        exact started (h.begun (by omega))
      have zero : since a (states.lookup key) = 0 := by
        refine since_eq_zero fun t there => ?_
        rcases failed.old t there with there | rfl
        · have early := h.stamped t there
          omega
        · omega
      change _ ∨ comparisons m key a w ≤ since a (states.lookup key) + comparing ∧
        since a (states.lookup key) + waiting + comparing ≤ maxFailures
      rw [none, zero]
      exact Or.inr ⟨by omega, by omega⟩

/-- A call ends without its failure on record, where no comparison counts. -/
theorem Bounded.leave (h : Bounded m clock key a waiting (comparing + 1) w)
    (steady : Monotone clock) (idle : comparisons m key a w = 0 ∨ a + lockout ≤ clock w.calls)
    {w' : World}
    (calls : w'.calls = w.calls + 1) (attempts : comparisons m key a w' = comparisons m key a w)
    (gone : w'.states.lookup key = none) : Bounded m clock key a waiting comparing w' := by
  have later : clock w.calls ≤ clock w'.calls := steady (by omega)
  have crowd := h.crowd
  refine ⟨attempts ▸ h.few, by omega, fun some => ?_, fun t there => ?_, fun before => ?_⟩
  · have early := h.begun (attempts ▸ some)
    omega
  · rw [gone] at there
    cases there
  · obtain ⟨left, -⟩ := h.room (by omega)
    have nothing : comparisons m key a w = 0 := by omega
    rw [attempts, gone]
    have zero : since a none = 0 := rfl
    exact ⟨left, Or.inr ⟨by omega, by omega⟩⟩

end Effects

end LoginLockout
