import CertMate.JsonTexts

/-!
# Integers as texts

What `strconv.FormatInt` writes in base ten, and what `fmt.Sscan` reads of it into
an integer of 64 bits.
-/
namespace IntegerTexts
open JsonTexts

def formatInt (n : Int) : String := toString n

/-- The base of a number and its digits. -/
def scanBasePrefix : List Char → Nat × List Char
  | '0' :: 'b' :: s => (2, s)
  | '0' :: 'B' :: s => (2, s)
  | '0' :: 'o' :: s => (8, s)
  | '0' :: 'O' :: s => (8, s)
  | '0' :: 'x' :: s => (16, s)
  | '0' :: 'X' :: s => (16, s)
  | '0' :: s => (8, '0' :: s)
  | s => (10, s)

def isDigit (base : Nat) (c : Char) : Bool := (hexValue c).any (· < base)

def number (base : Nat) (digits : List Char) : Nat :=
  digits.foldl (fun x c => base * x + (hexValue c).getD 0) 0

/-- The sign of a number, and what follows it. -/
def scanSign : List Char → Bool × List Char
  | '-' :: s => (true, s)
  | '+' :: s => (false, s)
  | s => (false, s)

/-- What a variable holds afterwards that was zero; underscores are not read. -/
def sscan (text : String) : Int :=
  let (negative, s) := scanSign (skipSpace text.toList)
  let (base, s) := scanBasePrefix s
  let n : Int := number base (s.takeWhile (isDigit base))
  let value := if negative then -n else n
  if s.takeWhile (isDigit base) = [] then 0
  else if -2 ^ 63 ≤ value ∧ value < 2 ^ 63 then value
  else 0

example : sscan "0x1F" = 31 ∧ sscan "-017" = -15 ∧ sscan " 42 days" = 42 ∧ sscan "days" = 0 := by
  decide +kernel

/-- Digits of a number that is not zero do not begin with one. -/
theorem toDigits_spec (n : Nat) : number 10 (Nat.toDigits 10 n) = n ∧
    (∀ c ∈ Nat.toDigits 10 n, isDigit 10 c = true) ∧
    (0 < n → ∃ c s, Nat.toDigits 10 n = c :: s ∧ c ≠ '0') := by
  have char : ∀ d < 10, isDigit 10 (Nat.digitChar d) = true ∧
      (hexValue (Nat.digitChar d)).getD 0 = d ∧ (0 < d → Nat.digitChar d ≠ '0') := by decide
  induction n using Nat.strongRecOn with
  | ind n ih =>
    by_cases small : n < 10
    · obtain ⟨digit, value, nonzero⟩ := char n small
      rw [Nat.toDigits_of_lt_base small]
      refine ⟨?_, ?_, ?_⟩
      · rw [number, List.foldl_cons, List.foldl_nil, value]
        omega
      · intro c there
        rw [List.mem_singleton.mp there]
        exact digit
      · intro positive
        exact ⟨_, [], rfl, nonzero positive⟩
    · obtain ⟨front, digits, begins⟩ := ih (n / 10) (by omega)
      obtain ⟨digit, value, -⟩ := char (n % 10) (Nat.mod_lt n (by decide))
      rw [Nat.toDigits_of_base_le (by decide) (Nat.le_of_not_lt small)]
      refine ⟨?_, ?_, ?_⟩
      · rw [number] at front ⊢
        rw [List.foldl_append, front, List.foldl_cons, List.foldl_nil, value]
        omega
      · intro c there
        rcases List.mem_append.mp there with there | there
        · exact digits c there
        · rw [List.mem_singleton.mp there]
          exact digit
      · intro _
        obtain ⟨c, s, join, nonzero⟩ := begins (by omega)
        exact ⟨c, s ++ [Nat.digitChar (n % 10)], by rw [join]; rfl, nonzero⟩

theorem scan_toDigits {m : Nat} (positive : 0 < m) :
    scanSign (Nat.toDigits 10 m) = (false, Nat.toDigits 10 m) ∧
      skipSpace (Nat.toDigits 10 m) = Nat.toDigits 10 m ∧
      scanBasePrefix (Nat.toDigits 10 m) = (10, Nat.toDigits 10 m) ∧
      (Nat.toDigits 10 m).takeWhile (isDigit 10) = Nat.toDigits 10 m := by
  obtain ⟨-, digits, begins⟩ := toDigits_spec m
  obtain ⟨c, s, join, nonzero⟩ := begins positive
  have digit : isDigit 10 c = true := digits c (by rw [join]; exact List.mem_cons_self)
  have whole : (Nat.toDigits 10 m).takeWhile (isDigit 10) = Nat.toDigits 10 m :=
    List.takeWhile_eq_self_iff.mpr digits
  have other : ∀ d, isDigit 10 d = false → c ≠ d := by
    rintro d no rfl
    rw [digit] at no
    cases no
  refine ⟨?_, ?_, ?_, whole⟩
  · rw [join, scanSign]
    · intro t same
      exact other '-' (by decide) (List.cons.inj same).1
    · intro t same
      exact other '+' (by decide) (List.cons.inj same).1
  · have solid : isSpace c = false := by
      rw [isSpace]
      simp [other ' ' (by decide), other '\n' (by decide), other '\r' (by decide),
        other '\t' (by decide)]
    rw [join, skipSpace, List.dropWhile_cons, solid]
    rfl
  · rw [join, scanBasePrefix]
    all_goals
      intro t same
      exact nonzero (List.cons.inj same).1

/-- What is written is read back. -/
theorem sscan_formatInt {n : Int} (nonzero : n ≠ 0) (low : -2 ^ 63 ≤ n) (high : n < 2 ^ 63) :
    sscan (formatInt n) = n := by
  cases n with
  | ofNat m =>
    have positive : 0 < m := by
      apply Nat.pos_of_ne_zero
      rintro rfl
      exact nonzero rfl
    obtain ⟨sign, solid, base, whole⟩ := scan_toDigits positive
    have text : (formatInt (Int.ofNat m)).toList = Nat.toDigits 10 m := Nat.toList_repr
    rw [sscan, text, solid, sign]
    dsimp only
    rw [base]
    dsimp only
    rw [whole, (toDigits_spec m).1, if_neg Nat.toDigits_ne_nil]
    exact if_pos ⟨low, high⟩
  | negSucc k =>
    obtain ⟨sign, solid, base, whole⟩ := scan_toDigits (Nat.succ_pos k)
    have text : (formatInt (Int.negSucc k)).toList = '-' :: Nat.toDigits 10 (k + 1) := by
      change (("-" : String) ++ Nat.repr (k + 1)).toList = _
      rw [String.toList_append, Nat.toList_repr]
      rfl
    have minus : skipSpace ('-' :: Nat.toDigits 10 (k + 1)) = '-' :: Nat.toDigits 10 (k + 1) := rfl
    rw [sscan, text, minus, scanSign]
    dsimp only
    rw [base]
    dsimp only
    rw [whole, (toDigits_spec (k + 1)).1, if_neg Nat.toDigits_ne_nil]
    exact if_pos ⟨low, high⟩

end IntegerTexts
