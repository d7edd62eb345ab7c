import Mathlib

/-!
# The integer ranges of the deployment script

`validate_integer_range` of `scripts/deploy.sh` admits digit strings of any length and
compares their values in the arithmetic of bash, which has 64 bits and wraps silently.
-/
namespace IntegerRanges

/-- The `intmax_t` of bash. -/
abbrev Word := BitVec 64

/-- `[0-9]`. -/
def isDigit (c : Char) : Bool := '0' ≤ c && c ≤ '9'

def digit (c : Char) : Nat := c.toNat - '0'.toNat

/-- The value of `10#` and these digits: `val * 10 + c` for one digit after the other. -/
def strlong (text : List Char) : Word :=
  text.foldl (fun val c => val * BitVec.ofNat 64 10 + BitVec.ofNat 64 (digit c)) (BitVec.ofNat 64 0)

def validateIntegerRange (key value : String) (minimum maximum : Nat) : Except String Unit :=
  if value = "" ∨ ¬ value.toList.all isDigit then .error (key ++ " 必须是整数。")
  else if (BitVec.ofNat 64 minimum).sle (strlong value.toList) &&
      (strlong value.toList).sle (BitVec.ofNat 64 maximum) then .ok ()
  else .error (key ++ " 必须在 " ++ toString minimum ++ "-" ++ toString maximum ++ " 范围内。")

/-- The number the digits stand for. -/
def number (text : List Char) : Nat := text.foldl (fun n c => n * 10 + digit c) 0

structure Digits (value : String) : Prop where
  some : value ≠ ""
  all : ∀ c ∈ value.toList, isDigit c = true

/-- What the check is to accept. -/
def InRange (value : String) (minimum maximum : Nat) : Prop :=
  Digits value ∧ minimum ≤ number value.toList ∧ number value.toList ≤ maximum

/-- The number does not fit in a word and comes back into the range. -/
def Wraps (value : String) (minimum maximum : Nat) : Prop :=
  Digits value ∧ 2 ^ 63 ≤ number value.toList ∧
    minimum ≤ number value.toList % 2 ^ 64 ∧ number value.toList % 2 ^ 64 ≤ maximum

theorem strlong_toNat (text : List Char) : (strlong text).toNat = number text % 2 ^ 64 := by
  have folded : ∀ (text : List Char) (val : Word) (n : Nat), val.toNat = n % 2 ^ 64 →
      (text.foldl (fun val c => val * BitVec.ofNat 64 10 + BitVec.ofNat 64 (digit c)) val).toNat =
        text.foldl (fun n c => n * 10 + digit c) n % 2 ^ 64 := by
    intro text
    induction text with
    | nil =>
      intro val n same
      exact same
    | cons c rest ih =>
      intro val n same
      apply ih
      simp only [BitVec.toNat_add, BitVec.toNat_mul, BitVec.toNat_ofNat, same]
      omega
  exact folded text _ 0 rfl

/-- A word lies between two bounds below the sign bit if the number it holds does. -/
theorem sle_iff {x : Word} {minimum maximum : Nat} (ordered : minimum ≤ maximum)
    (small : maximum < 2 ^ 63) :
    ((BitVec.ofNat 64 minimum).sle x && x.sle (BitVec.ofNat 64 maximum)) = true ↔
      minimum ≤ x.toNat ∧ x.toNat ≤ maximum := by
  have word := x.isLt
  simp only [Bool.and_eq_true, BitVec.sle_iff_toInt_le, BitVec.toInt_eq_toNat_cond,
    BitVec.toNat_ofNat]
  omega

theorem validateIntegerRange_iff {key value : String} {minimum maximum : Nat}
    (ordered : minimum ≤ maximum) (small : maximum < 2 ^ 63) :
    validateIntegerRange key value minimum maximum = .ok () ↔
      Digits value ∧ minimum ≤ number value.toList % 2 ^ 64 ∧
        number value.toList % 2 ^ 64 ≤ maximum := by
  have compared := @sle_iff (strlong value.toList) minimum maximum ordered small
  rw [strlong_toNat] at compared
  unfold validateIntegerRange
  split
  · rename_i refused
    constructor
    · intro accepted
      cases accepted
    · rintro ⟨digits, -⟩
      rcases refused with empty | other
      · exact absurd empty digits.some
      · exact absurd (List.all_eq_true.mpr digits.all) other
  · rename_i shape
    have digits : Digits value := by
      constructor
      · intro empty
        exact shape (Or.inl empty)
      · apply List.all_eq_true.mp
        by_contra other
        exact shape (Or.inr other)
    split
    · rename_i within
      exact iff_of_true rfl ⟨digits, compared.mp within⟩
    · rename_i outside
      constructor
      · intro accepted
        cases accepted
      · rintro ⟨-, within⟩
        exact absurd (compared.mpr within) outside

/-- The check is right about every string but those whose number wraps into the range. -/
theorem range_exact_iff (key value : String) {minimum maximum : Nat} (ordered : minimum ≤ maximum)
    (small : maximum < 2 ^ 63) :
    (validateIntegerRange key value minimum maximum = .ok () ↔ InRange value minimum maximum) ↔
      ¬ Wraps value minimum maximum := by
  rw [validateIntegerRange_iff ordered small]
  unfold InRange Wraps
  by_cases digits : Digits value
  · simp only [digits, true_and]
    constructor
    · intro exact_ wraps
      omega
    · intro none
      constructor
      · intro within
        omega
      · intro within
        omega
  · simp [digits]

theorem range_exact_iff_root :
    validateIntegerRange "APP_UID" "0" 1 2147483647 = .ok () ↔ InRange "0" 1 2147483647 := by
  apply (range_exact_iff "APP_UID" "0" (by omega) (by omega)).mpr
  rintro ⟨-, long, -⟩
  exact absurd long (by decide)

/-- 2^64 + 1 passes for the user 1. -/
theorem user_wraps :
    ¬ (validateIntegerRange "APP_UID" "18446744073709551617" 1 2147483647 = .ok () ↔
      InRange "18446744073709551617" 1 2147483647) := by
  have accepted : validateIntegerRange "APP_UID" "18446744073709551617" 1 2147483647 = .ok () := by
    decide +kernel
  intro exact_
  obtain ⟨-, -, below⟩ := exact_.mp accepted
  exact absurd below (by decide +kernel)

end IntegerRanges
