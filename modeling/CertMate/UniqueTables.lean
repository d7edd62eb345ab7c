import Mathlib

/-!
# Tables with a primary key and a second unique column

The caller chooses the keys. An insert or an update that would make a key or a
name appear twice is refused.
-/
namespace UniqueTables

structure Table (ρ κ ν : Type) (key : ρ → κ) (name : ρ → ν) where
  rows : List ρ
  keys : (rows.map key).Nodup
  names : (rows.map name).Nodup

namespace Table
variable {ρ κ ν : Type} {key : ρ → κ} {name : ρ → ν}

def empty : Table ρ κ ν key name := ⟨[], List.nodup_nil, List.nodup_nil⟩

section Operations
variable [DecidableEq κ]

def find? (T : Table ρ κ ν key name) (k : κ) : Option ρ :=
  T.rows.find? fun r => key r = k

def erase (T : Table ρ κ ν key name) (k : κ) : Table ρ κ ν key name where
  rows := T.rows.filter fun r => key r ≠ k
  keys := T.keys.sublist (List.filter_sublist.map key)
  names := T.names.sublist (List.filter_sublist.map name)

variable [DecidableEq ν]

def insert (T : Table ρ κ ν key name) (r : ρ) : Option (Table ρ κ ν key name) :=
  if free : (∀ s ∈ T.rows, key s ≠ key r) ∧ ∀ s ∈ T.rows, name s ≠ name r then
    some {
      rows := T.rows ++ [r]
      keys := by
        rw [List.map_append, List.map_singleton]
        refine List.Nodup.append T.keys (List.nodup_singleton _) ?_
        intro k hk hr
        obtain ⟨s, hs, rfl⟩ := List.mem_map.mp hk
        exact free.1 s hs (List.mem_singleton.mp hr)
      names := by
        rw [List.map_append, List.map_singleton]
        refine List.Nodup.append T.names (List.nodup_singleton _) ?_
        intro n hn hr
        obtain ⟨s, hs, rfl⟩ := List.mem_map.mp hn
        exact free.2 s hs (List.mem_singleton.mp hr) }
  else none

/-- Put `r` in the place of the row with its key, if there is one. -/
def replace (T : Table ρ κ ν key name) (r : ρ) : Option (Table ρ κ ν key name) :=
  if free : ∀ s ∈ T.rows, key s ≠ key r → name s ≠ name r then
    some {
      rows := T.rows.map fun s => if key s = key r then r else s
      keys := by
        have same : (T.rows.map fun s => if key s = key r then r else s).map key =
            T.rows.map key := by
          rw [List.map_map]
          refine List.map_congr_left fun s _ => ?_
          rw [Function.comp_apply]
          split
          · rename_i h
            exact h.symm
          · rfl
        rw [same]
        exact T.keys
      names := by
        rw [List.map_map]
        have unique : ∀ s ∈ T.rows, ∀ s' ∈ T.rows, key s = key s' → s = s' :=
          fun s hs s' hs' h => List.inj_on_of_nodup_map T.keys hs hs' h
        refine List.Nodup.map_on ?_ (List.Nodup.of_map _ T.names)
        intro s hs s' hs' h
        rw [Function.comp_apply, Function.comp_apply] at h
        by_cases mine : key s = key r
        · by_cases yours : key s' = key r
          · exact unique s hs s' hs' (mine.trans yours.symm)
          · rw [if_pos mine, if_neg yours] at h
            exact absurd h.symm (free s' hs' yours)
        · by_cases yours : key s' = key r
          · rw [if_neg mine, if_pos yours] at h
            exact absurd h (free s hs mine)
          · rw [if_neg mine, if_neg yours] at h
            exact List.inj_on_of_nodup_map T.names hs hs' h }
  else none

end Operations

/-- An update that leaves both columns alone. -/
def modify [DecidableEq κ] (T : Table ρ κ ν key name) (k : κ) (f : ρ → ρ)
    (keepsKey : ∀ r, key (f r) = key r) (keepsName : ∀ r, name (f r) = name r) :
    Table ρ κ ν key name where
  rows := T.rows.map fun r => if key r = k then f r else r
  keys := by
    have same : (T.rows.map fun r => if key r = k then f r else r).map key = T.rows.map key := by
      rw [List.map_map]
      refine List.map_congr_left fun r _ => ?_
      rw [Function.comp_apply]
      split
      · exact keepsKey r
      · rfl
    rw [same]
    exact T.keys
  names := by
    have same : (T.rows.map fun r => if key r = k then f r else r).map name = T.rows.map name := by
      rw [List.map_map]
      refine List.map_congr_left fun r _ => ?_
      rw [Function.comp_apply]
      split
      · exact keepsName r
      · rfl
    rw [same]
    exact T.names

section Lookup
variable [DecidableEq κ] {T T' : Table ρ κ ν key name}

@[simp] theorem find?_empty (k : κ) : (empty : Table ρ κ ν key name).find? k = none := rfl

theorem find?_eq_some_iff {k : κ} {r : ρ} : T.find? k = some r ↔ r ∈ T.rows ∧ key r = k := by
  constructor
  · intro h
    have same : decide (key r = k) = true := List.find?_some (p := fun s => decide (key s = k)) h
    exact ⟨List.mem_of_find?_eq_some h, of_decide_eq_true same⟩
  · rintro ⟨there, rfl⟩
    cases found : T.find? (key r) with
    | none => exact absurd (decide_eq_true rfl) (List.find?_eq_none.mp found r there)
    | some s =>
      have same : decide (key s = key r) = true :=
        List.find?_some (p := fun s => decide (key s = key r)) found
      have old := List.mem_of_find?_eq_some found
      rw [List.inj_on_of_nodup_map T.keys old there (of_decide_eq_true same)]

theorem key_of_find? {k : κ} {r : ρ} (h : T.find? k = some r) : key r = k :=
  (find?_eq_some_iff.mp h).2

theorem find?_eq_none_iff {k : κ} : T.find? k = none ↔ ∀ r ∈ T.rows, key r ≠ k := by
  rw [find?, List.find?_eq_none]
  simp

variable [DecidableEq ν]

theorem find?_insert {r : ρ} (h : T.insert r = some T') (k : κ) :
    T'.find? k = if k = key r then some r else T.find? k := by
  unfold insert at h
  split at h
  · rename_i free
    cases h
    by_cases hk : k = key r
    · subst hk
      rw [if_pos rfl]
      exact find?_eq_some_iff.mpr ⟨by simp, rfl⟩
    · rw [if_neg hk, find?, List.find?_append]
      have other : [r].find? (fun s => key s = k) = none := by
        simp [Ne.symm hk]
      rw [other, Option.or_none]
      rfl
  · cases h

/-- A row that is inserted was not there before. -/
theorem absent_of_insert {r : ρ} (h : T.insert r = some T') : T.find? (key r) = none := by
  unfold insert at h
  split at h
  · rename_i free
    exact find?_eq_none_iff.mpr free.1
  · cases h

theorem find?_replace {r : ρ} (h : T.replace r = some T') (k : κ) :
    T'.find? k = if k = key r then (T.find? k).map fun _ => r else T.find? k := by
  unfold replace at h
  split at h
  · cases h
    rw [find?, List.find?_map]
    have keeps : ((fun s => decide (key s = k)) ∘ fun s => if key s = key r then r else s) =
        fun s => decide (key s = k) := by
      funext s
      rw [Function.comp_apply]
      split
      · rename_i same
        rw [same]
      · rfl
    rw [keeps]
    change (T.find? k).map _ = _
    cases found : T.find? k with
    | none => simp
    | some s =>
      have same := key_of_find? found
      by_cases hk : k = key r
      · rw [if_pos hk, Option.map_some, if_pos (same.trans hk), Option.map_some]
      · rw [if_neg hk, Option.map_some, if_neg (same ▸ hk)]
  · cases h

omit [DecidableEq ν] in
theorem find?_modify (j : κ) (f : ρ → ρ) (keepsKey : ∀ r, key (f r) = key r)
    (keepsName : ∀ r, name (f r) = name r) (k : κ) :
    (T.modify j f keepsKey keepsName).find? k =
      if k = j then (T.find? k).map f else T.find? k := by
  have keeps : ((fun r => decide (key r = k)) ∘ fun r => if key r = j then f r else r) =
      fun r => decide (key r = k) := by
    funext r
    rw [Function.comp_apply]
    split
    · rw [keepsKey]
    · rfl
  rw [find?, modify, List.find?_map, keeps]
  change (T.find? k).map _ = _
  cases found : T.find? k with
  | none => simp
  | some r =>
    have same := key_of_find? found
    by_cases hk : k = j
    · rw [if_pos hk, Option.map_some, if_pos (same.trans hk), Option.map_some]
    · rw [if_neg hk, Option.map_some, if_neg (same ▸ hk)]

omit [DecidableEq ν] in
theorem find?_erase (j k : κ) : (T.erase j).find? k = if k = j then none else T.find? k := by
  by_cases hk : k = j
  · subst hk
    rw [if_pos rfl]
    refine find?_eq_none_iff.mpr fun r there => ?_
    exact of_decide_eq_true (List.mem_filter.mp there).2
  · rw [if_neg hk]
    cases found : T.find? k with
    | some r =>
      obtain ⟨there, same⟩ := find?_eq_some_iff.mp found
      exact find?_eq_some_iff.mpr
        ⟨List.mem_filter.mpr ⟨there, decide_eq_true (same ▸ hk)⟩, same⟩
    | none =>
      exact find?_eq_none_iff.mpr fun r there =>
        find?_eq_none_iff.mp found r (List.mem_filter.mp there).1

end Lookup

end Table

end UniqueTables
