import CertMate.LoginLimiter

/-!
# Pruning

`Allow`, `Failure` and `Success` of `internal/auth/limiter.go` on any keys, one after the
other, beside a limiter of one key that forgets nothing. What the table has dropped of a key
makes no difference to an answer, as long as there is room for the keys that count.
-/
namespace PrunedLimiter
open LoginLimiter

inductive Call where
  | allow (key : String)
  | failure (key : String)
  | success (key : String)
  deriving DecidableEq, Repr

structure Event where
  time : Int
  call : Call
  deriving DecidableEq, Repr

/-- The table after one event. -/
def record (states : States) (event : Event) : States :=
  match event.call with
  | .allow key => (allow event.time key states).2
  | .failure key => (failure event.time key states).getD (prune event.time states)
  | .success key => states.erase key

def tabled (events : List Event) : States := events.foldl record ∅

/-- Every failure since the last lock or success, and the end of the last lock. -/
structure Reference where
  failures : List Int
  lockedUntil : Option Int
  deriving DecidableEq, Repr

namespace Reference

def new : Reference := ⟨[], none⟩

/-- The failures within the window before `now`. -/
def counted (r : Reference) (now : Int) : List Int :=
  r.failures.filter fun t => now - window ≤ t

def locked (r : Reference) (now : Int) : Prop := ∃ end_, r.lockedUntil = some end_ ∧ now < end_

theorem locked_iff (r : Reference) (now : Int) :
    r.locked now ↔ r.lockedUntil.any (fun end_ => now < end_) = true := by
  simp [locked, Option.any_eq_true]

instance (r : Reference) (now : Int) : Decidable (r.locked now) :=
  decidable_of_iff _ (locked_iff r now).symm

/-- The failure that is the last of `maxFailures` within the window locks. -/
def fail (r : Reference) (now : Int) : Reference :=
  let failures := r.failures ++ [now]
  if maxFailures ≤ (Reference.mk failures r.lockedUntil |>.counted now).length then
    ⟨[], some (now + lockout)⟩
  else ⟨failures, r.lockedUntil⟩

/-- What an event is to the limiter of `key`. -/
def record (key : String) (r : Reference) (event : Event) : Reference :=
  match event.call with
  | .allow _ => r
  | .failure other => if other = key then r.fail event.time else r
  | .success other => if other = key then new else r

theorem record_failure (key : String) (r : Reference) (now : Int) (other : String) :
    r.record key ⟨now, .failure other⟩ = if other = key then r.fail now else r := rfl

theorem record_success (key : String) (r : Reference) (now : Int) (other : String) :
    r.record key ⟨now, .success other⟩ = if other = key then new else r := rfl

/-- There is something that an answer can still depend on. -/
def Live (r : Reference) (now : Int) : Prop := r.locked now ∨ r.counted now ≠ []

end Reference

def isolated (key : String) (events : List Event) : Reference :=
  events.foldl (Reference.record key) Reference.new

/-- The times do not decrease, and none is before the zero time. -/
structure Steady (events : List Event) : Prop where
  ordered : events.Pairwise fun e e' => e.time ≤ e'.time
  started : ∀ e ∈ events, zeroTime ≤ e.time

/-- At every failure there are fewer than `maxStates` keys with something live. -/
def Roomy (events : List Event) : Prop :=
  ∀ before now key after, events = before ++ ⟨now, .failure key⟩ :: after →
    Set.encard {k | (isolated k before).Live now} < maxStates

/-- Locked by its entry. -/
def lockedBy (o : Option AttemptState) (now : Int) : Prop :=
  ∃ state, o = some state ∧ now < state.lockedUntil

@[simp] theorem lockedBy_none (now : Int) : lockedBy none now ↔ False := by
  simp [lockedBy]

@[simp] theorem lockedBy_some (state : AttemptState) (now : Int) :
    lockedBy (some state) now ↔ now < state.lockedUntil := by
  simp [lockedBy]

/-- From `now` on the entry and the reference cannot be told apart. -/
structure Alike (now : Int) (o : Option AttemptState) (r : Reference) : Prop where
  locked : ∀ t, now ≤ t → (lockedBy o t ↔ r.locked t)
  counted : ∀ a, now - window ≤ a →
    ((failuresOf o).filter fun t => a ≤ t) = r.failures.filter fun t => a ≤ t
  ordered : (failuresOf o).Pairwise (· ≤ ·)
  past : ∀ t ∈ failuresOf o, t ≤ now

section Alike
variable {now : Int} {o : Option AttemptState} {r : Reference}

theorem Alike.later (h : Alike now o r) {now' : Int} (later : now ≤ now') : Alike now' o r where
  locked t ht := h.locked t (by omega)
  counted a ha := h.counted a (by omega)
  ordered := h.ordered
  past t ht := by
    have before := h.past t ht
    omega

theorem alike_new (now : Int) : Alike now none Reference.new where
  locked t _ := by
    constructor
    · rintro ⟨state, there, -⟩
      cases there
    · rintro ⟨end_, there, -⟩
      cases there
  counted _ _ := rfl
  ordered := List.Pairwise.nil
  past _ ht := nomatch ht

/-- In order, dropping the early failures leaves those within the window. -/
theorem recent_eq_filter {values : List Int} (ordered : values.Pairwise (· ≤ ·)) (cutoff : Int) :
    recent values cutoff = values.filter fun t => cutoff ≤ t := by
  unfold recent
  induction values with
  | nil => rfl
  | cons t rest ih =>
    obtain ⟨least, ordered'⟩ := List.pairwise_cons.mp ordered
    rw [List.dropWhile_cons]
    by_cases early : t < cutoff
    · have out : ¬ cutoff ≤ t := by omega
      simp only [early, out, decide_true, decide_false, if_true, List.filter_cons]
      exact ih ordered'
    · have all : ∀ u ∈ t :: rest, decide (cutoff ≤ u) = true := by
        intro u hu
        rcases List.mem_cons.mp hu with rfl | hu
        · exact decide_eq_true (by omega)
        · have more := least u hu
          exact decide_eq_true (by omega)
      rw [List.filter_eq_self.mpr all]
      simp [early]

/-- The failures that `Allow`, `Failure` and `prune` keep are those that count. -/
theorem Alike.recent_failures (h : Alike now o r) :
    recent (failuresOf o) (now - window) = r.counted now := by
  rw [recent_eq_filter h.ordered, h.counted _ (Int.le_refl _)]
  rfl

/-- An entry with its early failures dropped, or no entry if nothing is left of it. -/
theorem Alike.trimmed (h : Alike now o r) {o' : Option AttemptState}
    (locked : ∀ t, now ≤ t → (lockedBy o' t ↔ lockedBy o t))
    (failures : failuresOf o' = recent (failuresOf o) (now - window)) : Alike now o' r where
  locked t ht := (locked t ht).trans (h.locked t ht)
  counted a ha := by rw [failures, recent_filter ha, h.counted a ha]
  ordered := by
    rw [failures]
    exact h.ordered.sublist (recent_suffix _ _).sublist
  past t ht := by
    rw [failures] at ht
    exact h.past t ((recent_suffix _ _).subset ht)

/-- An entry that is not locked now is not locked later. -/
theorem not_lockedBy_of_le {t : Int} (free : ¬ lockedBy o now) (later : now ≤ t) :
    ¬ lockedBy o t := by
  rintro ⟨state, there, before⟩
  exact free ⟨state, there, by omega⟩

/-- An entry goes when it is not locked and has no failure left. -/
theorem Alike.forgotten (h : Alike now o r) (free : ¬ lockedBy o now)
    (none_left : recent (failuresOf o) (now - window) = []) : Alike now none r := by
  apply h.trimmed
  · intro t later
    simp [not_lockedBy_of_le free later]
  · exact none_left.symm

theorem Alike.pruned (h : Alike now o r) : Alike now (o.bind (pruned now)) r := by
  cases o with
  | none => exact h
  | some state =>
    rw [Option.bind_some]
    unfold LoginLimiter.pruned
    dsimp only
    split
    · rename_i gone
      apply h.forgotten
      · simpa using gone.1
      · exact gone.2
    · apply h.trimmed _ rfl
      intro t _
      simp

/-- What is left by `prune` is live. -/
theorem Alike.live (h : Alike now o r) (kept : (o.bind (LoginLimiter.pruned now)).isSome) :
    r.Live now := by
  cases o with
  | none => cases kept
  | some state =>
    rw [Option.bind_some] at kept
    unfold LoginLimiter.pruned at kept
    dsimp only at kept
    split at kept
    · cases kept
    · rename_i left
      by_cases locked : now < state.lockedUntil
      · exact Or.inl ((h.locked now (Int.le_refl _)).mp ⟨state, rfl, locked⟩)
      · refine Or.inr fun none_left => left ⟨locked, ?_⟩
        exact h.recent_failures.trans none_left

theorem Alike.failed (h : Alike now o r) (started : zeroTime ≤ now) :
    Alike now (some (recordFailure now (o.getD ⟨[], zeroTime⟩))) (r.fail now) := by
  have own : (o.getD ⟨[], zeroTime⟩).failures = failuresOf o := by cases o <;> rfl
  have kept := h.recent_failures
  have wide : 0 ≤ window := by decide
  have counted : ((Reference.mk (r.failures ++ [now]) r.lockedUntil).counted now) =
      recent (failuresOf o) (now - window) ++ [now] := by
    rw [kept]
    simp [Reference.counted, wide]
  unfold recordFailure Reference.fail
  dsimp only
  rw [own, counted]
  split
  · refine ⟨fun t _ => ?_, fun _ _ => rfl, List.Pairwise.nil, fun _ ht => nomatch ht⟩
    simp [Reference.locked]
  · refine ⟨fun t later => ?_, fun a ha => ?_, ?_, ?_⟩
    · refine Iff.trans ?_ (h.locked t later)
      cases o with
      | none =>
        have past : ¬ t < zeroTime := by omega
        simpa using past
      | some state => simp
    · change (recent (failuresOf o) (now - window) ++ [now]).filter _ = _
      rw [List.filter_append, List.filter_append, recent_filter ha, h.counted a ha]
    · change (recent (failuresOf o) (now - window) ++ [now]).Pairwise _
      refine List.pairwise_append.mpr
        ⟨h.ordered.sublist (recent_suffix _ _).sublist, List.pairwise_singleton _ _, ?_⟩
      intro t ht u hu
      rw [List.mem_singleton.mp hu]
      exact h.past t ((recent_suffix _ _).subset ht)
    · intro t ht
      rcases List.mem_append.mp ht with ht | ht
      · exact h.past t ((recent_suffix _ _).subset ht)
      · exact Int.le_of_eq (List.mem_singleton.mp ht)

end Alike

section Table
variable {now : Int} {key : String} {states : States}

/-- The answer, and the entry that has been asked for. -/
theorem allow_alike {r : Reference} (h : Alike now (states.lookup key) r) :
    (allow now key states).1 = !decide (r.locked now) ∧
      Alike now ((allow now key states).2.lookup key) r := by
  have locked := h.locked now (Int.le_refl _)
  unfold allow
  cases found : states.lookup key with
  | none =>
    rw [found] at h locked
    have free : ¬ r.locked now := by simpa using locked
    exact ⟨by simp [free], by rw [found]; exact h⟩
  | some state =>
    rw [found] at h locked
    dsimp only
    by_cases held : now < state.lockedUntil
    · rw [if_pos held]
      have there : r.locked now := locked.mp ⟨state, rfl, held⟩
      exact ⟨by simp [there], by rw [found]; exact h⟩
    · have free : ¬ lockedBy (some state) now := by simpa using held
      have open_ : ¬ r.locked now := fun there => free (locked.mpr there)
      rw [if_neg held]
      by_cases none_left : recent state.failures (now - window) = []
      · rw [if_pos none_left]
        refine ⟨by simp [open_], ?_⟩
        rw [AList.lookup_erase]
        exact h.forgotten free none_left
      · rw [if_neg none_left]
        refine ⟨by simp [open_], ?_⟩
        rw [AList.lookup_insert]
        apply h.trimmed _ rfl
        intro t _
        simp

/-- After `prune` the table has an entry for no more keys than are live. -/
theorem length_prune_le {r : String → Reference}
    (h : ∀ k, Alike now (states.lookup k) (r k)) :
    ((prune now states).keys.length : ℕ∞) ≤ Set.encard {k | (r k).Live now} := by
  have live : ∀ k ∈ (prune now states).keys, (r k).Live now := by
    intro k hk
    have there := AList.lookup_isSome.mpr (AList.mem_keys.mpr hk)
    rw [lookup_prune] at there
    exact (h k).live there
  have distinct : (prune now states).keys.toFinset.card = (prune now states).keys.length :=
    List.toFinset_card_of_nodup (prune now states).keys_nodup
  rw [← distinct, ← Set.encard_coe_eq_coe_finsetCard]
  refine Set.encard_le_encard fun k hk => live k ?_
  simpa using hk

theorem failure_none_iff : failure now key states = none ↔
    states.lookup key = none ∧ maxStates ≤ (prune now states).keys.length := by
  have same : (prune now states).keys.length = (prune now states).entries.length :=
    List.length_map _
  rw [same]
  unfold LoginLimiter.failure
  cases states.lookup key with
  | some state => simp
  | none =>
    dsimp only
    split
    · rename_i full
      simp [full]
    · rename_i room
      simp [room]

/-- There is room for a key without an entry. -/
theorem failure_succeeds (key : String) {r : String → Reference}
    (h : ∀ k, Alike now (states.lookup k) (r k))
    (room : Set.encard {k | (r k).Live now} < maxStates) :
    ∃ states', failure now key states = some states' := by
  cases recorded : failure now key states with
  | some states' => exact ⟨states', rfl⟩
  | none =>
    have full : (maxStates : ℕ∞) ≤ (prune now states).keys.length :=
      Nat.cast_le.mpr (failure_none_iff.mp recorded).2
    exact absurd ((full.trans (length_prune_le h)).trans_lt room) (lt_irrefl _)

/-- The entries after a failure, of the key and of another. -/
theorem lookup_failure {states' : States} (h : failure now key states = some states') :
    states'.lookup key =
        some (recordFailure now ((states.lookup key).getD ⟨[], zeroTime⟩)) ∧
      ∀ k, k ≠ key → states'.lookup k = states.lookup k ∨
        states'.lookup k = (states.lookup k).bind (pruned now) := by
  unfold LoginLimiter.failure at h
  cases found : states.lookup key with
  | some state =>
    rw [found] at h
    cases h
    exact ⟨AList.lookup_insert _, fun k away => Or.inl (AList.lookup_insert_ne away)⟩
  | none =>
    rw [found] at h
    dsimp only at h
    split at h
    · cases h
    · cases h
      refine ⟨AList.lookup_insert _, fun k away => Or.inr ?_⟩
      rw [AList.lookup_insert_ne away, lookup_prune]

end Table

section Runs

/-- One event, in the table and at each key by itself. -/
theorem record_alike {event : Event} {states : States} {r : String → Reference}
    (h : ∀ k, Alike event.time (states.lookup k) (r k)) (started : zeroTime ≤ event.time)
    (room : ∀ key, event.call = .failure key →
      Set.encard {k | (r k).Live event.time} < maxStates) (k : String) :
    Alike event.time ((record states event).lookup k) ((r k).record k event) := by
  obtain ⟨now, call⟩ := event
  cases call with
  | allow key =>
    change Alike now ((allow now key states).2.lookup k) (r k)
    by_cases own : k = key
    · subst own
      exact (allow_alike (h k)).2
    · rw [allow_other now key states own]
      exact h k
  | failure key =>
    obtain ⟨states', recorded⟩ := failure_succeeds key h (room key rfl)
    obtain ⟨entry, others⟩ := lookup_failure recorded
    have after : record states ⟨now, .failure key⟩ = states' := by simp [record, recorded]
    rw [after]
    by_cases own : k = key
    · subst own
      rw [entry, Reference.record_failure, if_pos rfl]
      exact (h k).failed started
    · rw [Reference.record_failure, if_neg (Ne.symm own)]
      rcases others k own with same | aged
      · rw [same]
        exact h k
      · rw [aged]
        exact (h k).pruned
  | success key =>
    change Alike now ((states.erase key).lookup k) _
    by_cases own : k = key
    · subst own
      rw [AList.lookup_erase, Reference.record_success, if_pos rfl]
      exact alike_new now
    · rw [AList.lookup_erase_ne own, Reference.record_success, if_neg (Ne.symm own)]
      exact h k

theorem Steady.before {before after : List Event} (h : Steady (before ++ after)) :
    Steady before where
  ordered := (List.pairwise_append.mp h.ordered).1
  started e he := h.started e (List.mem_append_left _ he)

theorem Roomy.before {before after : List Event} (h : Roomy (before ++ after)) : Roomy before := by
  intro before' now key after' split
  apply h before' now key (after' ++ after)
  rw [split, List.append_assoc, List.cons_append]

/-- The table and the limiters of its keys are alike after every sequence. -/
theorem tabled_alike (events : List Event) (steady : Steady events) (roomy : Roomy events)
    {now : Int} (last : ∀ e ∈ events, e.time ≤ now) (key : String) :
    Alike now ((tabled events).lookup key) (isolated key events) := by
  induction events using List.reverseRecOn generalizing now key with
  | nil => exact alike_new now
  | append_singleton before event ih =>
    have earlier : ∀ e ∈ before, e.time ≤ event.time := fun e he =>
      (List.pairwise_append.mp steady.ordered).2.2 e he event (List.mem_singleton_self event)
    have h := fun k => ih steady.before roomy.before earlier k
    have there : event ∈ before ++ [event] :=
      List.mem_append_right _ (List.mem_singleton_self event)
    rw [tabled, isolated, List.foldl_append, List.foldl_append]
    apply (record_alike h (steady.started event there) ?_ key).later (last event there)
    rintro k failed
    apply roomy before event.time k []
    rw [← failed]

/-- The table has at most `maxStates` entries. -/
theorem length_record_le {states : States} (h : states.keys.length ≤ maxStates) (event : Event) :
    (record states event).keys.length ≤ maxStates := by
  have erased : ∀ key, (states.erase key).keys.length ≤ states.keys.length := by
    intro key
    rw [AList.keys_erase]
    exact List.length_erase_le
  have replaced : ∀ key state, key ∈ states → (states.insert key state).keys.length =
      states.keys.length := by
    intro key state there
    have pos := List.length_pos_of_mem (AList.mem_keys.mp there)
    rw [AList.keys_insert, List.length_cons, List.length_erase_of_mem (AList.mem_keys.mp there)]
    omega
  have shorter : ∀ now, (prune now states).keys.length ≤ states.keys.length := fun now =>
    (keys_pruned_sublist now states.entries).length_le
  obtain ⟨now, call⟩ := event
  cases call with
  | allow key =>
    change (allow now key states).2.keys.length ≤ maxStates
    unfold allow
    split
    · exact h
    · rename_i state found
      dsimp only
      split
      · exact h
      · split
        · exact (erased key).trans h
        · exact (replaced key _ (AList.lookup_isSome.mp (by rw [found]; rfl))).trans_le h
  | failure key =>
    change ((failure now key states).getD (prune now states)).keys.length ≤ maxStates
    unfold LoginLimiter.failure
    split
    · rename_i state found
      exact (replaced key _ (AList.lookup_isSome.mp (by rw [found]; rfl))).trans_le h
    · split
      · exact (shorter now).trans h
      · rename_i room
        have entries : (prune now states).keys.length = (prune now states).entries.length :=
          List.length_map _
        have fewer : ((prune now states).keys.erase key).length ≤ (prune now states).keys.length :=
          List.length_erase_le
        change (AList.insert _ _ _).keys.length ≤ maxStates
        rw [AList.keys_insert, List.length_cons]
        omega
  | success key => exact (erased key).trans h

theorem length_tabled_le (events : List Event) : (tabled events).keys.length ≤ maxStates := by
  induction events using List.reverseRecOn with
  | nil => exact Nat.zero_le _
  | append_singleton before event ih =>
    rw [tabled, List.foldl_append]
    exact length_record_le ih event

/-- What `Allow` answers is what it would answer had nothing ever been dropped. -/
theorem pruning_invisible {events : List Event} (steady : Steady events) (roomy : Roomy events) :
    (∀ before now key after, events = before ++ ⟨now, .allow key⟩ :: after →
      (allow now key (tabled before)).1 = !decide ((isolated key before).locked now)) ∧
    ∀ before, before <+: events → (tabled before).keys.length ≤ maxStates := by
  constructor
  · intro before now key after split
    subst split
    have earlier : ∀ e ∈ before, e.time ≤ now := fun e he =>
      (List.pairwise_append.mp steady.ordered).2.2 e he ⟨now, .allow key⟩ List.mem_cons_self
    exact (allow_alike (tabled_alike before steady.before roomy.before earlier key)).1
  · intro before _
    exact length_tabled_le before

end Runs

theorem isolated_of_absent {key : String} {events : List Event}
    (absent : ∀ e ∈ events, e.call ≠ .failure key) : isolated key events = Reference.new := by
  induction events using List.reverseRecOn with
  | nil => rfl
  | append_singleton before event ih =>
    have same : isolated key before = Reference.new :=
      ih fun e he => absent e (List.mem_append_left _ he)
    have other := absent event (List.mem_append_right _ (List.mem_singleton_self event))
    rw [isolated, List.foldl_append]
    change (isolated key before).record key event = _
    rw [same]
    unfold Reference.record
    split
    · rfl
    · rename_i k failed
      rw [if_neg]
      rintro rfl
      exact other failed
    · split
      · rfl
      · rfl

theorem not_live_new (now : Int) : ¬ Reference.new.Live now := by
  rintro (⟨end_, there, -⟩ | counted)
  · cases there
  · exact counted rfl

/-- The key of a failure. -/
def failing (event : Event) : Option String :=
  match event.call with
  | .failure key => some key
  | _ => none

/-- A key is live only if it has failed. -/
theorem roomy_of_short {events : List Event} (short : events.length ≤ maxStates) :
    Roomy events := by
  intro before now key after split
  have inside : {k | (isolated k before).Live now} ⊆
      ((before.filterMap failing).toFinset : Set String) := by
    intro k live
    by_contra absent
    have clean : isolated k before = Reference.new := by
      apply isolated_of_absent
      intro e he failed
      apply absent
      simp only [List.coe_toFinset, Set.mem_ofPred_eq, List.mem_filterMap]
      exact ⟨e, he, by simp [failing, failed]⟩
    apply not_live_new now
    rw [← clean]
    exact live
  have few : (before.filterMap failing).toFinset.card < maxStates := by
    have distinct := List.toFinset_card_le (before.filterMap failing)
    have kept := List.length_filterMap_le failing before
    rw [split, List.length_append, List.length_cons] at short
    omega
  refine (Set.encard_le_encard inside).trans_lt ?_
  rw [Set.encard_coe_eq_coe_finsetCard]
  exact Nat.cast_lt.mpr few

def sampleEvents : List Event :=
  [⟨0, .failure "client"⟩, ⟨1, .failure "client"⟩, ⟨2, .failure "other"⟩, ⟨3, .failure "client"⟩,
    ⟨4, .failure "client"⟩, ⟨window, .failure "client"⟩, ⟨window + 1, .allow "client"⟩,
    ⟨window + lockout, .allow "client"⟩]

theorem sampleEvents_steady : Steady sampleEvents := by
  constructor
  · decide
  · decide

theorem sample_pruning_invisible :
    (allow (window + 1) "client" (tabled (sampleEvents.take 6))).1 = false ∧
      (allow (window + lockout) "client" (tabled (sampleEvents.take 7))).1 = true := by
  obtain ⟨answers, -⟩ :=
    pruning_invisible sampleEvents_steady (roomy_of_short (by decide))
  constructor
  · rw [answers _ (window + 1) "client" _ rfl]
    decide
  · rw [answers _ (window + lockout) "client" _ rfl]
    decide

end PrunedLimiter
