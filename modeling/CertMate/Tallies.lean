import Mathlib

/-!
# Tallies

A finite map from keys to whole numbers. A key that is not in the map counts as zero, so
a number can be changed before its key has been seen.
-/
namespace Tallies

abbrev Tally (α : Type) := AList fun _ : α => Int

/-- Every entry is zero. -/
def balanced {α : Type} (seen : Tally α) : Bool := seen.entries.all fun e => e.2 = 0

section
variable {α : Type} [DecidableEq α]

def count (seen : Tally α) (a : α) : Int := (seen.lookup a).getD 0

/-- Adds `d` to the number of a key, which is entered if it is not there. -/
def add (d : Int) (seen : Tally α) (a : α) : Tally α := seen.insert a (count seen a + d)

@[simp] theorem count_empty (a : α) : count (∅ : Tally α) a = 0 := rfl

theorem count_add (d : Int) (seen : Tally α) (a b : α) :
    count (add d seen a) b = count seen b + if a = b then d else 0 := by
  by_cases same : a = b
  · subst same
    rw [count, add, AList.lookup_insert, Option.getD_some, if_pos rfl]
  · rw [count, add, AList.lookup_insert_ne (Ne.symm same), if_neg same, Int.add_zero, count]

/-- A loop over a list adds `d` as often as the key occurs. -/
theorem count_foldl_add (d : Int) (l : List α) (seen : Tally α) (a : α) :
    count (l.foldl (add d) seen) a = count seen a + l.count a * d := by
  induction l generalizing seen with
  | nil => simp
  | cons b rest ih =>
    rw [List.foldl_cons, ih, count_add, List.count_cons]
    by_cases same : b = a
    · rw [if_pos same, if_pos (beq_iff_eq.mpr same), Int.natCast_add, Int.add_mul]
      omega
    · rw [if_neg same, if_neg (mt beq_iff_eq.mp same), Int.add_zero, Nat.add_zero]

/-- Keys that were entered and came back to zero do not count. -/
theorem balanced_iff {seen : Tally α} : balanced seen = true ↔ ∀ a, count seen a = 0 := by
  rw [balanced, List.all_eq_true]
  constructor
  · intro zero a
    cases found : seen.lookup a with
    | none => rw [count, found, Option.getD_none]
    | some n =>
      have there : (⟨a, n⟩ : Sigma fun _ : α => Int) ∈ seen.entries :=
        AList.mem_lookup_iff.mp found
      rw [count, found, Option.getD_some]
      exact of_decide_eq_true (zero _ there)
  · rintro zero ⟨a, n⟩ there
    have found : seen.lookup a = some n := AList.mem_lookup_iff.mpr there
    have number := zero a
    rw [count, found, Option.getD_some] at number
    exact decide_eq_true number

/-- Counting up over one list and down over another ends with nothing but zeros when the
lists have the same elements, each as often. -/
theorem balanced_foldl_iff {up down : List α} :
    balanced (down.foldl (add (-1)) (up.foldl (add 1) ∅)) = true ↔ down.Perm up := by
  rw [balanced_iff, List.perm_iff_count]
  refine forall_congr' fun a => ?_
  rw [count_foldl_add, count_foldl_add, count_empty]
  omega

end

end Tallies
