import CertMate.CallTrees
import CertMate.DomainValidation

/-!
# The login limiter

`internal/auth/limiter.go` and `Authenticate` of `internal/auth/manager.go`.
`Allow`, the comparison of the password and `Failure` are separate calls, each
at its own time. Times are nanoseconds since 1970 in UTC.
-/
namespace LoginLimiter
open CallTrees
open DomainValidation (trimSpace)

def minute : Int := 60 * 1000000000

def maxFailures : Nat := 5

def window : Int := 15 * minute

def lockout : Int := 5 * minute

def maxStates : Nat := 4096

/-- `time.Time{}`. -/
def zeroTime : Int := -62135596800 * 1000000000

structure AttemptState where
  failures : List Int
  lockedUntil : Int
  deriving DecidableEq, Repr

abbrev States := AList fun _ : String => AttemptState

def recent (values : List Int) (cutoff : Int) : List Int :=
  values.dropWhile fun t => t < cutoff

/-- What `prune` makes of one entry. -/
def pruned (now : Int) (state : AttemptState) : Option AttemptState :=
  let failures := recent state.failures (now - window)
  if ¬ now < state.lockedUntil ∧ failures = [] then none
  else some { state with failures := failures }

abbrev Entry := Sigma fun _ : String => AttemptState

def prunedEntry (now : Int) (e : Entry) : Option Entry :=
  (pruned now e.2).map fun state => ⟨e.1, state⟩

theorem keys_pruned_sublist (now : Int) (l : List Entry) :
    List.Sublist (l.filterMap (prunedEntry now)).keys l.keys := by
  induction l with
  | nil => exact .slnil
  | cons e rest ih =>
    rw [List.filterMap_cons]
    cases kept : prunedEntry now e with
    | none => exact ih.cons _
    | some e' =>
      obtain ⟨state, -, rfl⟩ := Option.map_eq_some_iff.mp kept
      exact ih.cons_cons _

def prune (now : Int) (states : States) : States where
  entries := states.entries.filterMap (prunedEntry now)
  nodupKeys := (keys_pruned_sublist now states.entries).nodup states.nodupKeys

theorem lookup_prune (now : Int) (states : States) (key : String) :
    (prune now states).lookup key = (states.lookup key).bind (pruned now) := by
  refine Option.ext fun state => ?_
  rw [← Option.mem_def, AList.mem_lookup_iff, Option.bind_eq_some_iff]
  constructor
  · intro there
    obtain ⟨e, old, kept⟩ := List.mem_filterMap.mp there
    obtain ⟨state', aged, same⟩ := Option.map_eq_some_iff.mp kept
    cases same
    exact ⟨e.2, AList.mem_lookup_iff.mpr old, aged⟩
  · rintro ⟨old, found, aged⟩
    refine List.mem_filterMap.mpr ⟨⟨key, old⟩, AList.mem_lookup_iff.mp found, ?_⟩
    exact Option.map_eq_some_iff.mpr ⟨state, aged, rfl⟩

/-- `Failure` once the key has an entry. -/
def recordFailure (now : Int) (state : AttemptState) : AttemptState :=
  let failures := recent state.failures (now - window) ++ [now]
  if maxFailures ≤ failures.length then ⟨[], now + lockout⟩
  else { state with failures := failures }

inductive Eff where
  | allow (key : String)
  | compare (client username password : String)
  | failure (key : String)
  | success (key : String)
  deriving DecidableEq, Repr

abbrev Ans : Eff → Type
  | .allow _ => Bool
  | .compare _ _ _ => Bool
  | _ => Unit

/-- `compare` is `bcrypt.CompareHashAndPassword` with the hash of the manager. -/
structure Manager where
  username : String
  toLower : String → String
  compare : String → Bool

/-- A comparison that was made. -/
structure Attempt where
  client : String
  username : String
  time : Int
  accepted : Bool
  deriving DecidableEq, Repr

/-- The history keeps the comparisons, the last first, and the failures that
found the table full. -/
structure World where
  states : States
  attempts : List Attempt
  dropped : List (String × Int)
  calls : Nat

def World.tick (w : World) : World := { w with calls := w.calls + 1 }

section Execution
variable (m : Manager) (clock : Nat → Int)

def allow (now : Int) (key : String) (states : States) : Bool × States :=
  match states.lookup key with
  | none => (true, states)
  | some state =>
    if now < state.lockedUntil then (false, states)
    else
      let failures := recent state.failures (now - window)
      if failures = [] then (true, states.erase key)
      else (true, states.insert key { state with failures := failures })

/-- `Failure`, or nothing if there is no room for the key. -/
def failure (now : Int) (key : String) (states : States) : Option States :=
  match states.lookup key with
  | some state => some (states.insert key (recordFailure now state))
  | none =>
    if maxStates ≤ (prune now states).entries.length then none
    else some ((prune now states).insert key (recordFailure now ⟨[], zeroTime⟩))

def exec : (e : Eff) → World → Ans e × World
  | .allow key, w =>
    ((allow (clock w.calls) key w.states).1,
      { w.tick with states := (allow (clock w.calls) key w.states).2 })
  | .compare client username password, w =>
    let accepted := username = m.username && m.compare password
    (accepted, { w.tick with
      attempts := ⟨client, username, clock w.calls, accepted⟩ :: w.attempts })
  | .failure key, w =>
    match failure (clock w.calls) key w.states with
    | some states => ((), { w.tick with states := states })
    | none => ((), { w.tick with
        states := prune (clock w.calls) w.states
        dropped := (key, clock w.calls) :: w.dropped })
  | .success key, w => ((), { w.tick with states := w.states.erase key })

end Execution

inductive AuthError where
  | rateLimited
  | invalidCredentials
  deriving DecidableEq, Repr

def keyOf (m : Manager) (client username : String) : String :=
  client ++ "\x00" ++ m.toLower (trimSpace username)

/-- The result is the error, if there is one. -/
def authenticate (m : Manager) (client username password : String) :
    Prog Eff Ans (Option AuthError) := do
  let key := keyOf m client username
  if !(← Prog.perform (Eff.allow key)) then return some .rateLimited
  else if !(← Prog.perform (Eff.compare client username password)) then
    Prog.perform (Eff.failure key)
    return some .invalidCredentials
  else
    Prog.perform (Eff.success key)
    return none

def failuresOf (o : Option AttemptState) : List Int := o.elim [] AttemptState.failures

/-- The recorded failures that are not older than `a`. -/
def since (a : Int) (o : Option AttemptState) : Nat :=
  ((failuresOf o).filter fun t => a ≤ t).length

/-- Locked to the end of the interval of one lockout that begins at `a`. -/
def Locked (a : Int) (o : Option AttemptState) : Prop :=
  ∃ state, o = some state ∧ a + lockout ≤ state.lockedUntil

/-- The entry has been touched by the passing of time only. -/
structure Aged (now : Int) (o o' : Option AttemptState) : Prop where
  kept : ∀ a, now ≤ a + window → since a o' = since a o
  short : (failuresOf o').length ≤ (failuresOf o).length
  old : ∀ t ∈ failuresOf o', t ∈ failuresOf o
  locked : ∀ a, now < a + lockout → Locked a o → Locked a o'

/-- The entry has one failure more, or is locked by it. -/
structure Failed (now : Int) (o o' : Option AttemptState) : Prop where
  counted : ∀ a, a ≤ now → now ≤ a + window → Locked a o' ∨ since a o' = since a o + 1
  short : (failuresOf o').length < maxFailures
  old : ∀ t ∈ failuresOf o', t ∈ failuresOf o ∨ t = now
  locked : ∀ a, a ≤ now → Locked a o → Locked a o'

theorem recent_filter {values : List Int} {cutoff a : Int} (h : cutoff ≤ a) :
    ((recent values cutoff).filter fun t => a ≤ t) = values.filter fun t => a ≤ t := by
  unfold recent
  induction values with
  | nil => rfl
  | cons t rest ih =>
    rw [List.dropWhile_cons]
    by_cases early : t < cutoff
    · have before : ¬ a ≤ t := by omega
      simp only [early, before, decide_true, decide_false, if_true, List.filter_cons]
      exact ih
    · simp only [early, decide_false, Bool.false_eq_true, if_false]

theorem recent_suffix (values : List Int) (cutoff : Int) : recent values cutoff <:+ values :=
  List.dropWhile_suffix _

theorem Aged.refl (now : Int) (o : Option AttemptState) : Aged now o o :=
  ⟨fun _ _ => rfl, Nat.le_refl _, fun _ h => h, fun _ _ h => h⟩

/-- The failures of an entry go by, and the entry with the last of them once it
is no longer locked. -/
theorem aged_of_recent {now : Int} {state : AttemptState} {o : Option AttemptState}
    (failures : failuresOf o = recent state.failures (now - window))
    (locked : ∀ a, now < a + lockout → a + lockout ≤ state.lockedUntil → Locked a o) :
    Aged now (some state) o := by
  have suffix := recent_suffix state.failures (now - window)
  refine ⟨fun a within => ?_, ?_, ?_, ?_⟩
  · have cutoff : now - window ≤ a := by omega
    rw [since, since, failures, recent_filter cutoff]
    rfl
  · rw [failures]
    exact suffix.length_le
  · rw [failures]
    exact fun t there => suffix.subset there
  · rintro a before ⟨_, ⟨⟩, until_⟩
    exact locked a before until_

theorem aged_pruned (now : Int) (o : Option AttemptState) : Aged now o (o.bind (pruned now)) := by
  cases o with
  | none => exact Aged.refl now none
  | some state =>
    rw [Option.bind_some]
    unfold pruned
    dsimp only
    split
    · rename_i gone
      refine aged_of_recent gone.2.symm fun a before held => ?_
      have still : now < state.lockedUntil := by omega
      exact absurd still gone.1
    · exact aged_of_recent rfl fun a _ held => ⟨_, rfl, held⟩

theorem failed_recordFailure (now : Int) (o : Option AttemptState) :
    Failed now o (some (recordFailure now (o.getD ⟨[], zeroTime⟩))) := by
  have before : (o.getD ⟨[], zeroTime⟩).failures = failuresOf o := by cases o <;> rfl
  have held : ∀ a, Locked a o → a + lockout ≤ (o.getD ⟨[], zeroTime⟩).lockedUntil := by
    rintro a ⟨state, rfl, until_⟩
    exact until_
  have suffix := recent_suffix (o.getD ⟨[], zeroTime⟩).failures (now - window)
  unfold recordFailure
  dsimp only
  split
  · refine ⟨fun a early _ => Or.inl ⟨_, rfl, ?_⟩, Nat.zero_lt_succ 4, (fun _ h => nomatch h),
      fun a early _ => ⟨_, rfl, ?_⟩⟩
    · exact Int.add_le_add_right early lockout
    · exact Int.add_le_add_right early lockout
  · rename_i few
    refine ⟨fun a early within => Or.inr ?_, Nat.lt_of_not_le few, fun t there => ?_,
      fun a _ locked => ⟨_, rfl, held a locked⟩⟩
    · change ((recent _ _ ++ [now]).filter _).length = _
      have cutoff : now - window ≤ a := by omega
      rw [List.filter_append, List.length_append, recent_filter cutoff, before]
      simp [since, early]
    · rcases List.mem_append.mp there with there | there
      · exact Or.inl (before ▸ suffix.subset there)
      · exact Or.inr (List.mem_singleton.mp there)

section Calls
variable (now : Int) (key : String) (states : States)

/-- A key is refused, or it is not locked and its entry grows older. -/
theorem allow_cases :
    ((allow now key states).1 = false ∧ (allow now key states).2 = states) ∨
      (allow now key states).1 = true ∧
        (∀ a, now < a + lockout → ¬ Locked a (states.lookup key)) ∧
        Aged now (states.lookup key) ((allow now key states).2.lookup key) := by
  unfold allow
  cases found : states.lookup key with
  | none =>
    refine Or.inr ⟨rfl, ?_, ?_⟩
    · rintro a _ ⟨state, h, _⟩
      cases h
    · rw [found]
      exact Aged.refl now none
  | some state =>
    dsimp only
    by_cases held : now < state.lockedUntil
    · exact Or.inl ⟨by rw [if_pos held], by rw [if_pos held]⟩
    · rw [if_neg held]
      have unlocked : ∀ a, now < a + lockout → ¬ Locked a (some state) := by
        rintro a before ⟨_, ⟨⟩, until_⟩
        omega
      by_cases none : recent state.failures (now - window) = []
      · rw [if_pos none]
        refine Or.inr ⟨rfl, unlocked, aged_of_recent ?_ fun a before held' => ?_⟩
        · rw [AList.lookup_erase, none]
          rfl
        · exact absurd ⟨state, rfl, held'⟩ (unlocked a before)
      · rw [if_neg none]
        refine Or.inr ⟨rfl, unlocked, ?_⟩
        rw [AList.lookup_insert]
        exact aged_of_recent rfl fun a _ held' => ⟨_, rfl, held'⟩

theorem allow_other {k : String} (away : k ≠ key) :
    (allow now key states).2.lookup k = states.lookup k := by
  unfold allow
  split
  · rfl
  · dsimp only
    split
    · rfl
    · split
      · exact AList.lookup_erase_ne away
      · exact AList.lookup_insert_ne away

variable {now key states}

theorem failure_own {states' : States} (h : failure now key states = some states') :
    Failed now (states.lookup key) (states'.lookup key) := by
  unfold failure at h
  cases found : states.lookup key with
  | some state =>
    rw [found] at h
    cases h
    rw [AList.lookup_insert]
    exact failed_recordFailure now (some state)
  | none =>
    rw [found] at h
    dsimp only at h
    split at h
    · cases h
    · cases h
      rw [AList.lookup_insert]
      exact failed_recordFailure now none

theorem failure_other {states' : States} (h : failure now key states = some states') {k : String}
    (away : k ≠ key) : Aged now (states.lookup k) (states'.lookup k) := by
  unfold failure at h
  split at h
  · cases h
    rw [AList.lookup_insert_ne away]
    exact Aged.refl now _
  · split at h
    · cases h
    · cases h
      rw [AList.lookup_insert_ne away, lookup_prune]
      exact aged_pruned now _

end Calls

section Execution
variable (m : Manager) (clock : Nat → Int)

/-- The key a call reads or writes the entry of. -/
def subject : Eff → Option String
  | .allow key | .failure key | .success key => some key
  | .compare _ _ _ => none

/-- The calls about other keys only let the entry grow older. -/
theorem exec_other {e : Eff} {key : String} (away : subject e ≠ some key) (w : World) :
    Aged (clock w.calls) (w.states.lookup key) ((exec m clock e w).2.states.lookup key) := by
  cases e with
  | allow other =>
    have same : (exec m clock (.allow other) w).2.states.lookup key = w.states.lookup key :=
      allow_other _ _ _ fun h => away (h ▸ rfl)
    rw [same]
    exact Aged.refl _ _
  | compare client username password => exact Aged.refl _ _
  | failure other =>
    have other_key : key ≠ other := fun h => away (h ▸ rfl)
    simp only [exec]
    cases recorded : failure (clock w.calls) other w.states with
    | some states => exact failure_other recorded other_key
    | none =>
      have same := lookup_prune (clock w.calls) w.states key
      dsimp only
      rw [same]
      exact aged_pruned _ _
  | success other =>
    have same : (exec m clock (.success other) w).2.states.lookup key = w.states.lookup key :=
      AList.lookup_erase_ne fun h => away (h ▸ rfl)
    rw [same]
    exact Aged.refl _ _

end Execution

end LoginLimiter
