import Mathlib

/-!
# Tables whose keys are given out once

A table numbers its rows itself. The next number is above every number in the
table, so an insert never meets an old row, and a number that was deleted is
never seen again.
-/
namespace KeyedTables

structure Table (ρ : Type) (key : ρ → Nat) where
  rows : List ρ
  next : Nat
  unique : (rows.map key).Nodup
  below : ∀ r ∈ rows, key r < next

namespace Table
variable {ρ : Type} {key : ρ → Nat}

def empty : Table ρ key where
  rows := []
  next := 0
  unique := List.nodup_nil
  below := by simp

def find? (T : Table ρ key) (k : Nat) : Option ρ :=
  T.rows.find? fun r => key r == k

/-- Append the row made for the next number. -/
def insert (T : Table ρ key) (make : Nat → ρ) (numbered : ∀ n, key (make n) = n) :
    Table ρ key where
  rows := T.rows ++ [make T.next]
  next := T.next + 1
  unique := by
    rw [List.map_append, List.map_singleton, numbered]
    refine List.Nodup.append T.unique (List.nodup_singleton _) ?_
    intro k hk hn
    obtain ⟨r, hr, rfl⟩ := List.mem_map.mp hk
    have := T.below r hr
    have := List.mem_singleton.mp hn
    omega
  below := by
    intro r hr
    rcases List.mem_append.mp hr with hr | hr
    · exact Nat.lt_succ_of_lt (T.below r hr)
    · rw [List.mem_singleton.mp hr, numbered]
      exact Nat.lt_succ_self _

/-- Rewrite every row by a function that keeps its key. -/
def mapRows (T : Table ρ key) (f : ρ → ρ) (keeps : ∀ r, key (f r) = key r) :
    Table ρ key where
  rows := T.rows.map f
  next := T.next
  unique := by
    rw [List.map_map, show key ∘ f = key from funext keeps]
    exact T.unique
  below := by
    intro r hr
    obtain ⟨s, hs, rfl⟩ := List.mem_map.mp hr
    rw [keeps]
    exact T.below s hs

/-- Rewrite the row with key `k`, if there is one. -/
def modify (T : Table ρ key) (k : Nat) (f : ρ → ρ) (keeps : ∀ r, key (f r) = key r) :
    Table ρ key :=
  T.mapRows (fun r => if key r = k then f r else r) fun r => by
    split
    · exact keeps r
    · rfl

def erase (T : Table ρ key) (k : Nat) : Table ρ key where
  rows := T.rows.filter fun r => key r != k
  next := T.next
  unique := T.unique.sublist (List.filter_sublist.map key)
  below := fun r hr => T.below r (List.mem_filter.mp hr).1

variable {T : Table ρ key}

theorem find?_eq_some_iff {k : Nat} {r : ρ} :
    T.find? k = some r ↔ r ∈ T.rows ∧ key r = k := by
  have unique := T.unique
  unfold find?
  generalize T.rows = rows at unique ⊢
  induction rows with
  | nil => simp
  | cons s rows ih =>
    rw [List.map_cons, List.nodup_cons] at unique
    by_cases hs : key s = k
    · rw [List.find?_cons_of_pos (by simpa using hs), Option.some_inj, List.mem_cons]
      constructor
      · rintro rfl
        exact ⟨Or.inl rfl, hs⟩
      · rintro ⟨rfl | hr, hk⟩
        · rfl
        · exact absurd (List.mem_map.mpr ⟨r, hr, hk.trans hs.symm⟩) unique.1
    · rw [List.find?_cons_of_neg (by simpa using hs), List.mem_cons]
      refine (ih unique.2).trans ?_
      constructor
      · rintro ⟨hr, hk⟩
        exact ⟨Or.inr hr, hk⟩
      · rintro ⟨rfl | hr, hk⟩
        · exact absurd hk hs
        · exact ⟨hr, hk⟩

theorem key_of_find? {k : Nat} {r : ρ} (h : T.find? k = some r) : key r = k :=
  (find?_eq_some_iff.mp h).2

theorem lt_next_of_find? {k : Nat} {r : ρ} (h : T.find? k = some r) : k < T.next := by
  obtain ⟨hr, rfl⟩ := find?_eq_some_iff.mp h
  exact T.below r hr

@[simp] theorem find?_next : T.find? T.next = none := by
  cases h : T.find? T.next with
  | none => rfl
  | some r => exact absurd (lt_next_of_find? h) (Nat.lt_irrefl _)

@[simp] theorem find?_empty (k : Nat) : (empty : Table ρ key).find? k = none := rfl

@[simp] theorem insert_next (make : Nat → ρ) (numbered : ∀ n, key (make n) = n) :
    (T.insert make numbered).next = T.next + 1 := rfl

@[simp] theorem mapRows_next (f : ρ → ρ) (keeps : ∀ r, key (f r) = key r) :
    (T.mapRows f keeps).next = T.next := rfl

@[simp] theorem modify_next (k : Nat) (f : ρ → ρ) (keeps : ∀ r, key (f r) = key r) :
    (T.modify k f keeps).next = T.next := rfl

@[simp] theorem erase_next (k : Nat) : (T.erase k).next = T.next := rfl

theorem find?_insert (make : Nat → ρ) (numbered : ∀ n, key (make n) = n) (j : Nat) :
    (T.insert make numbered).find? j = if j = T.next then some (make T.next) else T.find? j := by
  have new : ([make T.next].find? fun r => key r == j) =
      if j = T.next then some (make T.next) else none := by
    by_cases hj : j = T.next
    · simp [numbered, hj]
    · simp [numbered, hj, Ne.symm hj]
  by_cases hj : j = T.next
  · have old : T.rows.find? (fun r => key r == j) = none := hj ▸ find?_next
    simp only [find?, insert, List.find?_append, old, Option.none_or, new, if_pos hj]
  · simp only [find?, insert, List.find?_append, new, if_neg hj, Option.or_none]

theorem find?_mapRows (f : ρ → ρ) (keeps : ∀ r, key (f r) = key r) (j : Nat) :
    (T.mapRows f keeps).find? j = (T.find? j).map f := by
  simp only [find?, mapRows, List.find?_map]
  congr 2
  funext r
  exact congrArg (· == j) (keeps r)

theorem find?_modify (k : Nat) (f : ρ → ρ) (keeps : ∀ r, key (f r) = key r) (j : Nat) :
    (T.modify k f keeps).find? j = if j = k then (T.find? j).map f else T.find? j := by
  rw [modify, find?_mapRows]
  cases h : T.find? j with
  | none => simp
  | some r =>
    have hr := key_of_find? h
    by_cases hj : j = k
    · simp [hr, hj]
    · simp [hr, hj]

theorem find?_erase (k j : Nat) :
    (T.erase k).find? j = if j = k then none else T.find? j := by
  by_cases hj : j = k
  · rw [if_pos hj]
    cases h : (T.erase k).find? j with
    | none => rfl
    | some r =>
      obtain ⟨hr, hk⟩ := find?_eq_some_iff.mp h
      have := (List.mem_filter.mp hr).2
      simp [hk, hj] at this
  · rw [if_neg hj]
    cases h : T.find? j with
    | some r =>
      obtain ⟨hr, hk⟩ := find?_eq_some_iff.mp h
      exact find?_eq_some_iff.mpr ⟨List.mem_filter.mpr ⟨hr, by simp [hk, hj]⟩, hk⟩
    | none =>
      cases h' : (T.erase k).find? j with
      | none => rfl
      | some r =>
        obtain ⟨hr, hk⟩ := find?_eq_some_iff.mp h'
        have := find?_eq_some_iff.mpr ⟨(List.mem_filter.mp hr).1, hk⟩
        rw [h] at this
        cases this

theorem countP_insert (P : ρ → Bool) (make : Nat → ρ) (numbered : ∀ n, key (make n) = n) :
    (T.insert make numbered).rows.countP P = T.rows.countP P + if P
    (make T.next) then 1 else 0 := by
  rw [insert, List.countP_append, List.countP_singleton]

/-- Rewriting one row counts it anew. -/
theorem countP_modify (P : ρ → Bool) {k : Nat} {r : ρ} (there : T.find? k = some r) (f : ρ → ρ)
    (keeps : ∀ r, key (f r) = key r) :
    (T.modify k f keeps).rows.countP P + (if P r then 1 else 0) =
      T.rows.countP P + if P (f r) then 1 else 0 := by
  obtain ⟨member, named⟩ := find?_eq_some_iff.mp there
  have unique := T.unique
  rw [modify, mapRows, List.countP_map]
  clear there
  generalize T.rows = rows at member unique ⊢
  induction rows with
  | nil => cases member
  | cons s rows ih =>
    rw [List.map_cons, List.nodup_cons] at unique
    rw [List.countP_cons, List.countP_cons]
    rcases List.mem_cons.mp member with rfl | later
    · have others : rows.countP (P ∘ fun r => if key r = k then f r else r) = rows.countP P := by
        apply List.countP_congr
        intro s hs
        have away : key s ≠ k := by
          rintro same
          exact unique.1 (List.mem_map.mpr ⟨s, hs, same.trans named.symm⟩)
        simp only [Function.comp_apply, if_neg away]
      rw [others]
      simp only [Function.comp_apply, if_pos named]
      omega
    · have away : key s ≠ k := by
        rintro same
        exact unique.1 (List.mem_map.mpr ⟨r, later, named.trans same.symm⟩)
      have rest := ih later unique.2
      simp only [Function.comp_apply, if_neg away] at rest ⊢
      omega

end Table

end KeyedTables
