import CertMate.UniqueTables

/-!
# Tables seen through a view

A view shows the key and the name of every row, and maybe not all of the rest.
Tables that look the same through it still do after the same operations.
-/
namespace TableViews
open UniqueTables

section
variable {ρ κ ν ω : Type} {key : ρ → κ} {name : ρ → ν} (view : ρ → ω)

/-- The key and the name of a row can be read off its view. -/
structure Shows (key : ρ → κ) (name : ρ → ν) (view : ρ → ω) : Prop where
  key : ∃ seen : ω → κ, ∀ r, seen (view r) = key r
  name : ∃ seen : ω → ν, ∀ r, seen (view r) = name r

def seen (T : Table ρ κ ν key name) : List ω := T.rows.map view

variable {view} {T T' : Table ρ κ ν key name} [DecidableEq κ]

theorem find?_seen (shows : Shows key name view) (same : seen view T = seen view T') (k : κ) :
    (T.find? k).map view = (T'.find? k).map view := by
  obtain ⟨keyOf, reads⟩ := shows.key
  have through : ∀ T : Table ρ κ ν key name,
      (T.find? k).map view = (seen view T).find? fun o => keyOf o = k := by
    intro T
    simp [Table.find?, seen, List.find?_map, reads]
  rw [through, through, same]

theorem erase_seen (shows : Shows key name view) (same : seen view T = seen view T') (k : κ) :
    seen view (T.erase k) = seen view (T'.erase k) := by
  obtain ⟨keyOf, reads⟩ := shows.key
  have through : ∀ T : Table ρ κ ν key name,
      seen view (T.erase k) = (seen view T).filter fun o => keyOf o ≠ k := by
    intro T
    simp [Table.erase, seen, List.filter_map, Function.comp_def, reads]
  rw [through, through, same]

variable [DecidableEq ν] {r r' : ρ}

theorem insert_seen (shows : Shows key name view) (same : seen view T = seen view T')
    (row : view r = view r') :
    (T.insert r).map (seen view) = (T'.insert r').map (seen view) := by
  obtain ⟨keyOf, keys⟩ := shows.key
  obtain ⟨nameOf, names⟩ := shows.name
  have through : ∀ (T : Table ρ κ ν key name) r, (T.insert r).map (seen view) =
      if (∀ o ∈ seen view T, keyOf o ≠ keyOf (view r)) ∧
        ∀ o ∈ seen view T, nameOf o ≠ nameOf (view r)
      then some (seen view T ++ [view r]) else none := by
    intro T r
    simp only [Table.insert, seen, List.forall_mem_map, keys, names]
    split <;> simp [seen]
  rw [through, through, same, row]

theorem replace_seen (shows : Shows key name view) (same : seen view T = seen view T')
    (row : view r = view r') :
    (T.replace r).map (seen view) = (T'.replace r').map (seen view) := by
  obtain ⟨keyOf, keys⟩ := shows.key
  obtain ⟨nameOf, names⟩ := shows.name
  have through : ∀ (T : Table ρ κ ν key name) r, (T.replace r).map (seen view) =
      if ∀ o ∈ seen view T, keyOf o ≠ keyOf (view r) → nameOf o ≠ nameOf (view r)
      then some ((seen view T).map fun o => if keyOf o = keyOf (view r) then view r else o)
      else none := by
    intro T r
    simp only [Table.replace, seen, List.forall_mem_map, keys, names]
    split
    · simp only [Option.map_some, seen, List.map_map, Function.comp_def, keys, apply_ite view]
    · rfl
  rw [through, through, same, row]

end

end TableViews
