import Mathlib

/-!
# Decimal texts and their order

Digits in a field of a fixed width, and digits without the zeros at the end, in
the order of texts.
-/
namespace DecimalTexts

/-- The last `w` decimal digits. -/
def digits : Nat → Nat → List Char
  | 0, _ => []
  | w + 1, n => digits w (n / 10) ++ [Nat.digitChar (n % 10)]

@[simp] theorem digits_length (w n : Nat) : (digits w n).length = w := by
  induction w generalizing n with
  | zero => rfl
  | succ w ih => rw [digits, List.length_append, ih, List.length_singleton]

/-- A field of its own width is compared first. -/
theorem append_lt_append_iff {l l' : List Char} (same : l.length = l'.length) (m m' : List Char) :
    l ++ m < l' ++ m' ↔ l < l' ∨ l = l' ∧ m < m' := by
  induction l generalizing l' with
  | nil =>
    obtain rfl := List.length_eq_zero_iff.mp same.symm
    simp
  | cons c l ih =>
    cases l' with
    | nil => cases same
    | cons c' l' =>
      rw [List.length_cons, List.length_cons] at same
      rw [List.cons_append, List.cons_append, List.cons_lt_cons_iff, List.cons_lt_cons_iff,
        ih (by omega), List.cons.injEq]
      tauto

theorem digitChar_lt_iff {a b : Nat} (ha : a < 10) (hb : b < 10) :
    Nat.digitChar a < Nat.digitChar b ↔ a < b := by
  have less : Nat.digitChar a < Nat.digitChar b ↔
      (Nat.digitChar a).toNat < (Nat.digitChar b).toNat := Iff.rfl
  rw [less, Nat.toNat_digitChar_of_lt_ten ha, Nat.toNat_digitChar_of_lt_ten hb]
  omega

theorem digits_lt_iff {w a b : Nat} (ha : a < 10 ^ w) (hb : b < 10 ^ w) :
    digits w a < digits w b ↔ a < b := by
  induction w generalizing a b with
  | zero =>
    rw [Nat.pow_zero] at ha hb
    simp only [digits]
    constructor
    · intro h
      exact absurd h (List.lt_irrefl _)
    · omega
  | succ w ih =>
    rw [Nat.pow_succ] at ha hb
    have lower : a / 10 < 10 ^ w := by omega
    have upper : b / 10 < 10 ^ w := by omega
    have same : digits w (a / 10) = digits w (b / 10) ↔ a / 10 = b / 10 := by
      constructor
      · intro equal
        have first := (ih lower upper).mpr
        have second := (ih upper lower).mpr
        rw [equal] at first second
        by_contra apart
        rcases Nat.lt_or_gt_of_ne apart with less | more
        · exact List.lt_irrefl _ (first less)
        · exact List.lt_irrefl _ (second more)
      · intro equal
        rw [equal]
    rw [digits, digits, append_lt_append_iff (by simp), ih lower upper, same, List.cons_lt_cons_iff,
      digitChar_lt_iff (Nat.mod_lt _ (by decide)) (Nat.mod_lt _ (by decide))]
    have none : ¬ ([] : List Char) < [] := List.lt_irrefl _
    simp only [none, and_false, or_false]
    omega

theorem digits_inj {w a b : Nat} (ha : a < 10 ^ w) (hb : b < 10 ^ w)
    (same : digits w a = digits w b) : a = b := by
  by_contra apart
  rcases Nat.lt_or_gt_of_ne apart with less | more
  · exact absurd ((digits_lt_iff ha hb).mpr less) (same ▸ List.lt_irrefl _)
  · exact absurd ((digits_lt_iff hb ha).mpr more) (same ▸ List.lt_irrefl _)

theorem digit_of_mem {w n : Nat} {c : Char} (h : c ∈ digits w n) : '0' ≤ c ∧ c < 'Z' := by
  induction w generalizing n with
  | zero => cases h
  | succ w ih =>
    rw [digits, List.mem_append, List.mem_singleton] at h
    rcases h with front | rfl
    · exact ih front
    · have small : n % 10 < 10 := Nat.mod_lt _ (by decide)
      generalize n % 10 = d at small
      revert d
      decide

theorem digits_succ (w n : Nat) : ∃ c l, digits (w + 1) n = c :: l ∧ '0' ≤ c := by
  have wide := digits_length (w + 1) n
  have low : ∀ c ∈ digits (w + 1) n, '0' ≤ c := fun c h => (digit_of_mem h).1
  cases chars : digits (w + 1) n with
  | nil =>
    rw [chars] at wide
    cases wide
  | cons c l =>
    rw [chars] at low
    exact ⟨c, l, rfl, low c List.mem_cons_self⟩

/-- What is written by leading zeros and digits. -/
theorem replicate_toDigits {w n : Nat} (h : n < 10 ^ w) (some_ : 0 < w) :
    List.replicate (w - (Nat.toDigits 10 n).length) '0' ++ Nat.toDigits 10 n = digits w n := by
  induction w generalizing n with
  | zero => omega
  | succ w ih =>
    have zeros : ∀ w, digits w 0 = List.replicate w '0' := by
      intro w
      induction w with
      | zero => rfl
      | succ w ih =>
        rw [digits, Nat.zero_div, ih, Nat.zero_mod, List.replicate_succ']
        rfl
    by_cases small : n < 10
    · rw [Nat.toDigits_of_lt_base small, digits, Nat.div_eq_of_lt small, Nat.mod_eq_of_lt small,
        zeros]
      rfl
    · have step := Nat.toDigits_of_base_le (b := 10) (by decide) (Nat.le_of_not_lt small)
      rw [Nat.pow_succ] at h
      have wide : 0 < w := by
        rcases Nat.eq_zero_or_pos w with rfl | wide
        · rw [Nat.pow_zero] at h
          omega
        · exact wide
      have front := @ih (n / 10) (by omega) wide
      rw [digits, ← front, step, List.length_append, List.length_singleton, List.append_assoc,
        Nat.add_sub_add_right]

/-- A number is compared before what is written after a separator. -/
theorem field_lt_iff {w a b : Nat} (ha : a < 10 ^ w) (hb : b < 10 ^ w) (c : Char)
    (m m' : List Char) :
    digits w a ++ c :: m < digits w b ++ c :: m' ↔ a < b ∨ a = b ∧ m < m' := by
  have same : digits w a = digits w b ↔ a = b :=
    ⟨digits_inj ha hb, fun equal => by rw [equal]⟩
  have apart : ¬ c < c := Nat.lt_irrefl _
  rw [append_lt_append_iff (by simp), digits_lt_iff ha hb, same, List.cons_lt_cons_iff]
  simp only [apart, true_and, false_or]

/-- The leading digits come first. -/
theorem digits_add (w k n : Nat) :
    digits (w + k) n = digits w (n / 10 ^ k) ++ digits k (n % 10 ^ k) := by
  induction k generalizing n with
  | zero => simp [digits]
  | succ k ih =>
    have inside : n % 10 ^ (k + 1) / 10 = n / 10 % 10 ^ k := by
      rw [Nat.pow_succ', Nat.mod_mul_right_div_self]
    have last : n % 10 ^ (k + 1) % 10 = n % 10 :=
      Nat.mod_mod_of_dvd _ ⟨10 ^ k, Nat.pow_succ'⟩
    have front : n / 10 ^ (k + 1) = n / 10 / 10 ^ k := by
      rw [Nat.pow_succ', Nat.div_div_eq_div_mul]
    rw [← Nat.add_assoc, digits, ih, digits, inside, last, front, List.append_assoc]

/-- The zeros at the end are left out. -/
def trim (l : List Char) : List Char := (l.reverse.dropWhile (· == '0')).reverse

theorem trim_cons (c : Char) (l : List Char) :
    trim (c :: l) = if trim l = [] ∧ c = '0' then [] else c :: trim l := by
  simp only [trim, List.reverse_cons, List.dropWhile_append, List.reverse_eq_nil_iff]
  by_cases all : l.reverse.dropWhile (· == '0') = []
  · by_cases zero : c = '0'
    · simp [all, zero]
    · simp [all, zero]
  · simp [all]

theorem mem_of_mem_trim {l : List Char} {c : Char} (h : c ∈ trim l) : c ∈ l := by
  rw [trim, List.mem_reverse] at h
  exact List.mem_reverse.mp ((List.dropWhile_sublist _).mem h)

/-- Of two numbers the zeros at the end of the greater are fewer or it differs
from the smaller before them. -/
theorem trim_of_lt {l l' : List Char} (same : l.length = l'.length)
    (low : ∀ c ∈ l, '0' ≤ c) (less : l < l') :
    trim l' ≠ [] ∧ ¬ trim l' <+: trim l ∧
      (trim l <+: trim l' ∨ ∀ m m', trim l ++ m < trim l' ++ m') := by
  induction l generalizing l' with
  | nil =>
    obtain rfl := List.length_eq_zero_iff.mp same.symm
    exact absurd less (List.lt_irrefl _)
  | cons c l ih =>
    cases l' with
    | nil => cases same
    | cons c' l' =>
      rw [List.length_cons, List.length_cons] at same
      rw [List.cons_lt_cons_iff] at less
      rcases less with first | ⟨rfl, later⟩
      · have apart : c ≠ c' := by
          rintro rfl
          exact Nat.lt_irrefl _ first
        have digit : c' ≠ '0' := by
          rintro rfl
          exact absurd first (Char.not_lt.mpr (low c List.mem_cons_self))
        have whole : trim (c' :: l') = c' :: trim l' := by
          rw [trim_cons, if_neg fun h => digit h.2]
        rw [whole, trim_cons]
        refine ⟨List.cons_ne_nil _ _, ?_, ?_⟩
        · split
          · intro h
            exact List.cons_ne_nil _ _ (List.prefix_nil.mp h)
          · intro h
            exact apart (List.cons_prefix_cons.mp h).1.symm
        · split
          · exact Or.inl List.nil_prefix
          · right
            intro m m'
            rw [List.cons_append, List.cons_append, List.cons_lt_cons_iff]
            exact Or.inl first
      · obtain ⟨some_, none, order⟩ := ih (by omega)
          (fun x there => low x (List.mem_cons_of_mem c there)) later
        have whole : trim (c :: l') = c :: trim l' := by
          rw [trim_cons, if_neg fun h => some_ h.1]
        rw [whole, trim_cons]
        refine ⟨List.cons_ne_nil _ _, ?_, ?_⟩
        · split
          · intro h
            exact List.cons_ne_nil _ _ (List.prefix_nil.mp h)
          · intro h
            exact none (List.cons_prefix_cons.mp h).2
        · split
          · exact Or.inl List.nil_prefix
          · rcases order with front | order
            · exact Or.inl (List.cons_prefix_cons.mpr ⟨rfl, front⟩)
            · right
              intro m m'
              rw [List.cons_append, List.cons_append, List.cons_lt_cons_iff]
              exact Or.inr ⟨rfl, order m m'⟩

/-- A point and the digits, if there are any, and the end of the text. -/
def ending (l : List Char) : List Char :=
  (if trim l = [] then [] else '.' :: trim l) ++ ['Z']

theorem ending_lt {l l' : List Char} (same : l.length = l'.length)
    (low : ∀ c ∈ l, '0' ≤ c) (less : l < l') (apart : ¬ trim l <+: trim l') :
    ending l < ending l' := by
  obtain ⟨some_, -, front | order⟩ := trim_of_lt same low less
  · exact absurd front apart
  · have more : trim l ≠ [] := by
      intro none
      rw [none] at apart
      exact apart List.nil_prefix
    rw [ending, ending, if_neg some_, if_neg more, List.cons_append, List.cons_append,
      List.cons_lt_cons_iff]
    exact Or.inr ⟨rfl, order _ _⟩

theorem ending_gt {l l' : List Char} (same : l.length = l'.length)
    (low : ∀ c ∈ l, '0' ≤ c) (high : ∀ c ∈ l', c < 'Z') (less : l < l')
    (front : trim l <+: trim l') : ending l' < ending l := by
  obtain ⟨some_, none, -⟩ := trim_of_lt same low less
  by_cases empty : trim l = []
  · rw [ending, ending, if_neg some_, if_pos empty, List.cons_append, List.nil_append,
      List.cons_lt_cons_iff]
    exact Or.inl (by decide)
  · obtain ⟨x, join⟩ := front
    cases x with
    | nil =>
      rw [List.append_nil] at join
      rw [join] at none
      exact absurd (List.prefix_refl _) none
    | cons c x =>
      rw [ending, ending, if_neg some_, if_neg empty, ← join, List.cons_append, List.cons_append,
        List.cons_lt_cons_iff, List.append_assoc, append_lt_append_iff rfl]
      right
      refine ⟨rfl, Or.inr ⟨rfl, ?_⟩⟩
      have there : c ∈ l' := by
        apply mem_of_mem_trim
        rw [← join, List.mem_append]
        exact Or.inr List.mem_cons_self
      rw [List.cons_append, List.cons_lt_cons_iff]
      exact Or.inl (high c there)

end DecimalTexts
