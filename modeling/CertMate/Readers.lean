import Mathlib

/-!
# Readers, read to the end or to a limit

A reader hands out a sequence piece by piece, as large or as small as it likes, and says
when it has come to the end, with the last piece or after it.
-/
namespace Readers

inductive Stop (ε : Type) where
  | eof
  | failed (err : ε)
  deriving DecidableEq, Repr

/-- A read into a buffer of some size answers what it has put there. -/
structure Reader (σ β ε : Type) where
  read : Nat → σ → (List β × Option (Stop ε)) × σ

/-- What is left to read of a sequence, and how many reads there have been. -/
structure Input (β : Type) where
  left : List β
  reads : Nat

/-- The `n`-th read hands out at most `grain n + 1` elements; when these are the last ones
and `early n` says so, it reports the end at once. -/
structure Delivery where
  grain : Nat → Nat
  early : Nat → Bool

section
variable {σ β ε : Type}

/-- A reader of a sequence that ends with `ending`. -/
def Delivery.reader (d : Delivery) (ending : Stop ε) : Reader (Input β) β ε where
  read size s :=
    let n := min size (d.grain s.reads + 1)
    let stop := if s.left = [] ∨ (s.left.drop n = [] ∧ d.early s.reads) then some ending else none
    ((s.left.take n, stop), ⟨s.left.drop n, s.reads + 1⟩)

/-- Stops after so many elements. -/
def limitReader (R : Reader σ β ε) : Reader (σ × Nat) β ε where
  read size s :=
    if s.2 = 0 then (([], some .eof), s)
    else
      let r := R.read (min size s.2) s.1
      (r.1, (r.2, s.2 - r.1.1.length))

/-- Reads until there is an end or an error, into a buffer that has room for
`room n + 1` more elements when it holds `n`. -/
def readAll (R : Reader σ β ε) (room : Nat → Nat) :
    (fuel : Nat) → List β → σ → Option ((List β × Option ε) × σ)
  | 0, _, _ => none
  | fuel + 1, read, s =>
    let r := R.read (room read.length + 1) s
    match r.1.2 with
    | none => readAll R room fuel (read ++ r.1.1) r.2
    | some .eof => some ((read ++ r.1.1, none), r.2)
    | some (.failed err) => some ((read ++ r.1.1, some err), r.2)

/-- A piece and what a limit leaves of the rest. -/
theorem take_piece {l : List β} {n limit : Nat} (within : n ≤ limit) :
    l.take n ++ (l.drop n).take (limit - (l.take n).length) = l.take limit ∧
      (l.drop n).drop (limit - (l.take n).length) = l.drop limit := by
  by_cases long : n ≤ l.length
  · rw [List.length_take, Nat.min_eq_left long, ← List.take_add, List.drop_drop,
      Nat.add_sub_cancel' within]
    exact ⟨rfl, rfl⟩
  · have short : l.length ≤ n := Nat.le_of_not_le long
    rw [List.take_of_length_le short, List.drop_of_length_le short, List.take_nil, List.drop_nil,
      List.append_nil, List.take_of_length_le (Nat.le_trans short within),
      List.drop_of_length_le (Nat.le_trans short within)]
    exact ⟨rfl, rfl⟩

/-- However a sequence is handed out: up to a limit it is read as it is, and the rest is
left. -/
theorem readAll_limit (d : Delivery) (room : Nat → Nat) {fuel limit : Nat} (read : List β)
    (s : Input β) (enough : limit < fuel) :
    ∃ s', readAll (limitReader (d.reader (ε := ε) .eof)) room fuel read (s, limit) =
        some ((read ++ s.left.take limit, none), s') ∧
      s'.1.left = s.left.drop limit := by
  induction fuel generalizing limit read s with
  | zero => exact absurd enough (Nat.not_lt_zero _)
  | succ fuel ih =>
    by_cases reached : limit = 0
    · subst reached
      exact ⟨_, rfl, rfl⟩
    -- The piece has an element, unless there is none left.
    let n := min (min (room read.length + 1) limit) (d.grain s.reads + 1)
    have positive : 0 < n := by omega
    have within : n ≤ limit := by omega
    have piece : (limitReader (d.reader (ε := ε) .eof)).read (room read.length + 1) (s, limit) =
        ((s.left.take n, if s.left = [] ∨ (s.left.drop n = [] ∧ d.early s.reads) then some .eof
          else none), (⟨s.left.drop n, s.reads + 1⟩, limit - (s.left.take n).length)) := by
      simp only [limitReader, if_neg reached]
      rfl
    obtain ⟨taken, rest⟩ := take_piece (l := s.left) within
    rw [readAll, piece]
    by_cases stop : s.left = [] ∨ (s.left.drop n = [] ∧ d.early s.reads)
    · have last : s.left.drop n = [] := by
        rcases stop with none | ⟨last, -⟩
        · rw [none, List.drop_nil]
        · exact last
      rw [last, List.take_nil, List.append_nil] at taken
      rw [last, List.drop_nil] at rest
      simp only [if_pos stop]
      exact ⟨_, by rw [taken], last.trans rest⟩
    · have more : 0 < (s.left.take n).length := by
        rw [List.length_take]
        have some : 0 < s.left.length := List.length_pos_iff.mpr fun none => stop (Or.inl none)
        omega
      simp only [if_neg stop]
      have smaller : limit - (s.left.take n).length < fuel := by omega
      obtain ⟨s', done, left⟩ := ih (read ++ s.left.take n) ⟨s.left.drop n, s.reads + 1⟩ smaller
      refine ⟨s', ?_, left.trans rest⟩
      rw [done, List.append_assoc, taken]

end

end Readers
