import CertMate.CivilDates
import CertMate.DecimalTexts

/-!
# The order of the stored times

A stored time is a text, and texts are compared where times are meant. Their
order is that of the times except where one of two fractions of the same second
begins with the other.
-/
namespace TimestampOrder
open CertificateModel Timestamps DecimalTexts CivilDates

theorem repeat_push (s : String) (c : Char) (k : Nat) :
    (k.repeat (fun s => s.push c) s).toList = s.toList ++ List.replicate k c := by
  induction k with
  | zero => simp [Nat.repeat]
  | succ k ih => rw [Nat.repeat, String.toList_push, ih, List.append_assoc, List.replicate_succ']

theorem pad_replicate (w n : Nat) : (pad w n).toList =
    List.replicate (w - (Nat.toDigits 10 n).length) '0' ++ Nat.toDigits 10 n := by
  have number : (toString n).toList = Nat.toDigits 10 n := Nat.toList_repr
  have size : (toString n).length = (Nat.toDigits 10 n).length := by
    rw [← String.length_toList, number]
  rw [pad, Int.natAbs_natCast, String.toList_append, String.pushn_eq_repeat_push, repeat_push,
    number, size]
  rfl

theorem pad_toList {w n : Nat} (wide : 0 < w) (h : n < 10 ^ w) :
    (pad w n).toList = digits w n := by
  rw [pad_replicate, replicate_toDigits h wide]

/-- A number that is too wide is written whole. -/
theorem pad_wide {w v n : Nat} (size : (Nat.toDigits 10 n).length = v) (wide : w ≤ v) :
    (pad w n).toList = digits v n := by
  have some_ : 0 < v := size ▸ Nat.length_toDigits_pos
  have small : n < 10 ^ v :=
    (Nat.length_toDigits_le_iff (by decide) some_).mp (Nat.le_of_eq size)
  rw [pad_replicate, ← replicate_toDigits small some_, size, Nat.sub_eq_zero_of_le wide,
    Nat.sub_self]

section
variable (t : Time)

def second : Int := t / 1000000000

def nanoseconds : Nat := (t % 1000000000).toNat

def clock : Nat := (second t % 86400).toNat

def year : Int := (civil (second t / 86400)).1

def month : Nat := (civil (second t / 86400)).2.1.toNat

def monthDay : Nat := (civil (second t / 86400)).2.2.toNat

theorem nanoseconds_lt : nanoseconds t < 10 ^ 9 := by
  rw [nanoseconds]
  omega

theorem clock_lt : clock t < 86400 := by
  rw [clock]
  omega

theorem month_bounds : 1 ≤ month t ∧ month t ≤ 12 := by
  have bounds := civil_bounds (second t / 86400)
  rw [month]
  omega

theorem monthDay_bounds : 1 ≤ monthDay t ∧ monthDay t ≤ 31 := by
  have bounds := civil_bounds (second t / 86400)
  rw [monthDay]
  omega

theorem civil_month : (civil (second t / 86400)).2.1 = month t := by
  have bounds := civil_bounds (second t / 86400)
  rw [month]
  omega

theorem civil_monthDay : (civil (second t / 86400)).2.2 = monthDay t := by
  have bounds := civil_bounds (second t / 86400)
  rw [monthDay]
  omega

theorem clock_eq : (clock t : Int) = second t % 86400 := by
  rw [clock]
  omega

/-- What is written after the year. -/
def remainder : List Char :=
  digits 2 (month t) ++ '-' :: (digits 2 (monthDay t) ++ 'T' :: (digits 2 (clock t / 3600) ++ ':' ::
    (digits 2 (clock t % 3600 / 60) ++ ':' :: (digits 2 (clock t % 60) ++
      ending (digits 9 (nanoseconds t))))))

theorem fraction_toList {n : Nat} (h : n < 10 ^ 9) :
    (fraction n).toList = if trim (digits 9 n) = [] then [] else '.' :: trim (digits 9 n) := by
  rw [fraction, pad_toList (by decide) h]
  change (if (trim (digits 9 n)).isEmpty = true then ""
    else "." ++ String.ofList (trim (digits 9 n))).toList = _
  by_cases none : trim (digits 9 n) = []
  · simp [none]
  · simp [none]

theorem rfc3339Nano_toList : (rfc3339Nano t).toList =
    (if year t < 0 then ['-'] else []) ++ ((pad 4 (year t)).toList ++ '-' :: remainder t) := by
  have nano : t % 1000000000 = nanoseconds t :=
    (Int.toNat_of_nonneg (Int.emod_nonneg t (by decide))).symm
  have hour : second t % 86400 / 3600 = (clock t / 3600 : Nat) := by
    rw [clock]
    omega
  have minute : second t % 86400 % 3600 / 60 = (clock t % 3600 / 60 : Nat) := by
    rw [clock]
    omega
  have seconds : second t % 86400 % 60 = (clock t % 60 : Nat) := by
    rw [clock]
    omega
  have months := civil_month t
  have days := civil_monthDay t
  have short := clock_lt t
  have m := month_bounds t
  have d := monthDay_bounds t
  rcases date : civil (t / 1000000000 / 86400) with ⟨y, mo, dm⟩
  have y_eq : year t = y := by rw [year, second, date]
  rw [second, date] at months days
  dsimp only at months days
  rw [second] at hour minute seconds
  rw [rfc3339Nano]
  dsimp only
  rw [date]
  dsimp only
  rw [hour, minute, seconds, nano, months, days, y_eq]
  simp only [String.toList_append]
  rw [pad_toList (by decide) (show month t < 10 ^ 2 by omega),
    pad_toList (by decide) (show monthDay t < 10 ^ 2 by omega),
    pad_toList (by decide) (show clock t / 3600 < 10 ^ 2 by omega),
    pad_toList (by decide) (show clock t % 3600 / 60 < 10 ^ 2 by omega),
    pad_toList (by decide) (show clock t % 60 < 10 ^ 2 by omega),
    fraction_toList (nanoseconds_lt t)]
  have dash : ("-" : String).toList = ['-'] := rfl
  have sign : (if y < 0 then "-" else "" : String).toList = if y < 0 then ['-'] else [] := by
    split <;> rfl
  have clockMark : ("T" : String).toList = ['T'] := rfl
  have colon : (":" : String).toList = [':'] := rfl
  have zone : ("Z" : String).toList = ['Z'] := rfl
  simp only [remainder, ending, List.append_assoc, dash, sign, clockMark, colon, zone,
    List.cons_append, List.nil_append]

end

/-- A year with four digits. -/
def Ordinary (t : Time) : Prop := 0 ≤ year t ∧ year t ≤ 9999

instance (t : Time) : Decidable (Ordinary t) := inferInstanceAs (Decidable (_ ∧ _))

/-- The fractions differ and one begins with the other. -/
def Ragged (a b : List Char) : Prop := a ≠ b ∧ (a <+: b ∨ b <+: a)

instance (a b : List Char) : Decidable (Ragged a b) := inferInstanceAs (Decidable (_ ∧ _))

theorem Ragged.comm {a b : List Char} (h : Ragged a b) : Ragged b a := ⟨h.1.symm, h.2.symm⟩

/-- Clocks are compared by hours, minutes and seconds. -/
theorem clock_lt_iff (a b : Nat) (P : Prop) :
    (a / 3600 < b / 3600 ∨ a / 3600 = b / 3600 ∧ (a % 3600 / 60 < b % 3600 / 60 ∨
      a % 3600 / 60 = b % 3600 / 60 ∧ (a % 60 < b % 60 ∨ a % 60 = b % 60 ∧ P))) ↔
      a < b ∨ a = b ∧ P := by
  have wholeA : a = 3600 * (a / 3600) + 60 * (a % 3600 / 60) + a % 60 := by omega
  have wholeB : b = 3600 * (b / 3600) + 60 * (b % 3600 / 60) + b % 60 := by omega
  have minuteA : a % 3600 / 60 < 60 := by omega
  have minuteB : b % 3600 / 60 < 60 := by omega
  have secondA : a % 60 < 60 := by omega
  have secondB : b % 60 < 60 := by omega
  generalize a / 3600 = h, a % 3600 / 60 = m, a % 60 = s at *
  generalize b / 3600 = h', b % 3600 / 60 = m', b % 60 = s' at *
  subst wholeA wholeB
  by_cases tail : P
  · simp only [tail, and_true]
    omega
  · simp only [tail, and_false, or_false]
    omega

theorem remainder_lt_iff (s t : Time) : remainder s < remainder t ↔
    month s < month t ∨ month s = month t ∧ (monthDay s < monthDay t ∨
      monthDay s = monthDay t ∧ (clock s < clock t ∨ clock s = clock t ∧
        ending (digits 9 (nanoseconds s)) < ending (digits 9 (nanoseconds t)))) := by
  have monthS := month_bounds s
  have monthT := month_bounds t
  have dayS := monthDay_bounds s
  have dayT := monthDay_bounds t
  have clockS := clock_lt s
  have clockT := clock_lt t
  have last : digits 2 (clock s % 60) = digits 2 (clock t % 60) ↔ clock s % 60 = clock t % 60 :=
    ⟨digits_inj (by omega) (by omega), fun equal => by rw [equal]⟩
  rw [remainder, remainder, field_lt_iff (by omega) (by omega), field_lt_iff (by omega) (by omega),
    field_lt_iff (by omega) (by omega), field_lt_iff (by omega) (by omega),
    append_lt_append_iff (by simp), digits_lt_iff (by omega) (by omega), last, clock_lt_iff]

/-- Texts are compared up to the second as the times are. -/
theorem text_lt_iff {s t : Time} (hs : Ordinary s) (ht : Ordinary t) :
    rfc3339Nano s < rfc3339Nano t ↔ second s < second t ∨ second s = second t ∧
      ending (digits 9 (nanoseconds s)) < ending (digits 9 (nanoseconds t)) := by
  obtain ⟨lowS, highS⟩ := hs
  obtain ⟨lowT, highT⟩ := ht
  obtain ⟨y, yearS⟩ : ∃ y : Nat, year s = y := ⟨(year s).toNat, by omega⟩
  obtain ⟨z, yearT⟩ : ∃ z : Nat, year t = z := ⟨(year t).toNat, by omega⟩
  rw [String.lt_iff_toList_lt, rfc3339Nano_toList, rfc3339Nano_toList, if_neg (by omega),
    if_neg (by omega), List.nil_append, List.nil_append, yearS, yearT,
    pad_toList (by decide) (show y < 10 ^ 4 by omega),
    pad_toList (by decide) (show z < 10 ^ 4 by omega), field_lt_iff (by omega) (by omega),
    remainder_lt_iff]
  have dates := lt_iff_civil (second s / 86400) (second t / 86400)
  have dates' := lt_iff_civil (second t / 86400) (second s / 86400)
  rw [year] at yearS yearT
  rw [yearS, yearT, civil_month, civil_month, civil_monthDay, civil_monthDay] at dates dates'
  have clockS := clock_eq s
  have clockT := clock_eq t
  by_cases tail : ending (digits 9 (nanoseconds s)) < ending (digits 9 (nanoseconds t))
  · simp only [tail, and_true]
    omega
  · simp only [tail, and_false, or_false]
    omega

theorem ending_lt_iff {m n : Nat} (hm : m < 10 ^ 9) (hn : n < 10 ^ 9) :
    (m < n ↔ ending (digits 9 m) < ending (digits 9 n)) ↔
      ¬ Ragged (trim (digits 9 m)) (trim (digits 9 n)) := by
  have same : (digits 9 m).length = (digits 9 n).length := by simp
  have low : ∀ k, ∀ c ∈ digits 9 k, '0' ≤ c := fun k c h => (digit_of_mem h).1
  have high : ∀ k, ∀ c ∈ digits 9 k, c < 'Z' := fun k c h => (digit_of_mem h).2
  rcases Nat.lt_trichotomy m n with less | rfl | more
  · have order := (digits_lt_iff hm hn).mpr less
    obtain ⟨-, apart, -⟩ := trim_of_lt same (low m) order
    by_cases front : trim (digits 9 m) <+: trim (digits 9 n)
    · have wrong := ending_gt same (low m) (high n) order front
      have differ : trim (digits 9 m) ≠ trim (digits 9 n) := fun equal =>
        apart (equal ▸ List.prefix_refl _)
      exact iff_of_false (fun h => lt_asymm wrong (h.mp less))
        (not_not_intro ⟨differ, Or.inl front⟩)
    · have right := ending_lt same (low m) order front
      exact iff_of_true (iff_of_true less right) fun h => h.2.elim front apart
  · exact iff_of_true (iff_of_false (Nat.lt_irrefl m) (lt_irrefl _)) fun h => h.1 rfl
  · have order := (digits_lt_iff hn hm).mpr more
    obtain ⟨-, apart, -⟩ := trim_of_lt same.symm (low n) order
    by_cases front : trim (digits 9 n) <+: trim (digits 9 m)
    · have wrong := ending_gt same.symm (low n) (high m) order front
      have differ : trim (digits 9 m) ≠ trim (digits 9 n) := fun equal =>
        apart (equal ▸ List.prefix_refl _)
      exact iff_of_false (fun h => Nat.lt_asymm more (h.mpr wrong))
        (not_not_intro ⟨differ, Or.inr front⟩)
    · have right := ending_lt same.symm (low n) order front
      exact iff_of_true (iff_of_false (Nat.lt_asymm more) (lt_asymm right)) fun h =>
        h.2.elim apart front

theorem ragged_fraction {m n : Nat} (hm : m < 10 ^ 9) (hn : n < 10 ^ 9) :
    Ragged (trim (digits 9 m)) (trim (digits 9 n)) ↔
      Ragged (fraction m).toList (fraction n).toList := by
  rw [fraction_toList hm, fraction_toList hn]
  by_cases noneM : trim (digits 9 m) = []
  · by_cases noneN : trim (digits 9 n) = []
    · simp [Ragged, noneM, noneN]
    · simp [Ragged, noneM, noneN, Ne.symm noneN]
  · by_cases noneN : trim (digits 9 n) = []
    · simp [Ragged, noneM, noneN]
    · simp [Ragged, noneM, noneN]

/-- The first four digits of a year. -/
def leading (year : Nat) : Nat := year / 10 ^ (Nat.log 10 year - 3)

/-- Where the texts order the two times otherwise than the clock. The second time
has an ordinary year; the first may be any. -/
def Clash (s t : Time) : Prop :=
  if 10000 ≤ year s then (leading (year s).toNat : Int) < year t
  else second s = second t ∧
    Ragged (fraction (nanoseconds s)).toList (fraction (nanoseconds t)).toList

instance (s t : Time) : Decidable (Clash s t) := inferInstanceAs (Decidable (ite _ _ _))

theorem lt_iff_parts (s t : Int) : s < t ↔ s / 1000000000 < t / 1000000000 ∨
    s / 1000000000 = t / 1000000000 ∧ (s % 1000000000).toNat < (t % 1000000000).toNat := by
  omega

theorem lt_iff_second (s t : Time) : s < t ↔ second s < second t ∨
    second s = second t ∧ nanoseconds s < nanoseconds t :=
  lt_iff_parts s t

theorem year_mono {s t : Time} (h : second s ≤ second t) : year s ≤ year t := by
  have dates := lt_iff_civil (second t / 86400) (second s / 86400)
  rw [year, year]
  omega

theorem ordinary_order {s t : Time} (hs : Ordinary s) (ht : Ordinary t) :
    (t < s ↔ rfc3339Nano t < rfc3339Nano s) ↔ ¬ Clash s t := by
  have few : ¬ 10000 ≤ year s := by
    have bound := hs.2
    omega
  have both : Ragged (fraction (nanoseconds s)).toList (fraction (nanoseconds t)).toList ↔
      Ragged (trim (digits 9 (nanoseconds t))) (trim (digits 9 (nanoseconds s))) := by
    rw [ragged_fraction (nanoseconds_lt t) (nanoseconds_lt s)]
    exact ⟨Ragged.comm, Ragged.comm⟩
  have order := ending_lt_iff (nanoseconds_lt t) (nanoseconds_lt s)
  rw [Clash, if_neg few, both, text_lt_iff ht hs, lt_iff_second]
  by_cases same : second t = second s
  · simp only [same, lt_irrefl, true_and, false_or]
    exact order
  · simp only [same, Ne.symm same, false_and, or_false, not_false_eq_true]

/-- The text of an ordinary year begins with its four digits. -/
theorem ordinary_toList {t : Time} (ht : Ordinary t) : ∃ z : Nat, year t = z ∧ z < 10 ^ 4 ∧
    (rfc3339Nano t).toList = digits 4 z ++ '-' :: remainder t := by
  obtain ⟨low, high⟩ := ht
  refine ⟨(year t).toNat, by omega, by omega, ?_⟩
  obtain ⟨z, named⟩ : ∃ z : Nat, year t = z := ⟨(year t).toNat, by omega⟩
  rw [rfc3339Nano_toList, if_neg (by omega), List.nil_append, named, Int.toNat_natCast,
    pad_toList (by decide) (by omega)]

/-- Before the year 0 the sign comes first. -/
theorem negative_order {s t : Time} (hs : year s < 0) (ht : Ordinary t) :
    rfc3339Nano s < rfc3339Nano t := by
  obtain ⟨z, -, -, text⟩ := ordinary_toList ht
  rw [String.lt_iff_toList_lt, rfc3339Nano_toList, if_pos hs, text, List.singleton_append]
  obtain ⟨c, rest, chars, digit⟩ := digits_succ 3 z
  rw [chars, List.cons_append, List.cons_lt_cons_iff]
  exact Or.inl (lt_of_lt_of_le (by decide) digit)

/-- A year from 10000 on is written with more digits. -/
theorem long_year {s : Time} (hs : 10000 ≤ year s) : ∃ k y : Nat, year s = y ∧
    Nat.log 10 y = k + 4 ∧ y / 10 ^ (k + 1) < 10 ^ 4 ∧
    (rfc3339Nano s).toList = digits 4 (y / 10 ^ (k + 1)) ++
      (digits (k + 1) (y % 10 ^ (k + 1)) ++ '-' :: remainder s) := by
  obtain ⟨y, year_s⟩ : ∃ y : Nat, year s = y := ⟨(year s).toNat, by omega⟩
  rw [year_s] at hs
  obtain ⟨k, log⟩ : ∃ k, Nat.log 10 y = k + 4 := by
    have least : 4 ≤ Nat.log 10 y := Nat.le_log_of_pow_le (by decide) (by omega)
    exact ⟨Nat.log 10 y - 4, by omega⟩
  have lower : 10 ^ (k + 4) ≤ y := by
    rw [← log]
    exact Nat.pow_log_le_self 10 (by omega)
  have upper : y < 10 ^ (k + 5) := by
    have bound := Nat.lt_pow_succ_log_self (b := 10) (by decide) y
    rwa [log] at bound
  have size : (Nat.toDigits 10 y).length = k + 5 := by
    have most := (Nat.length_toDigits_le_iff (by decide) (Nat.succ_pos (k + 4))).mpr upper
    have least := mt (Nat.length_toDigits_le_iff (by decide) (Nat.succ_pos (k + 3))).mp
      (Nat.not_lt.mpr lower)
    omega
  have width : k + 5 = 4 + (k + 1) := by omega
  have number : (pad 4 y).toList =
      digits 4 (y / 10 ^ (k + 1)) ++ digits (k + 1) (y % 10 ^ (k + 1)) := by
    rw [← digits_add, ← width]
    exact pad_wide size (by omega)
  have front : y / 10 ^ (k + 1) < 10 ^ 4 := by
    rw [width, Nat.pow_add] at upper
    exact Nat.div_lt_of_lt_mul (by rwa [Nat.mul_comm])
  refine ⟨k, y, year_s, log, front, ?_⟩
  rw [rfc3339Nano_toList, year_s, if_neg (by omega), List.nil_append, number, List.append_assoc]

/-- From the year 10000 on the text has more digits, and four of them are compared. -/
theorem long_order {s t : Time} (hs : 10000 ≤ year s) (ht : Ordinary t) :
    rfc3339Nano t < rfc3339Nano s ↔ year t ≤ leading (year s).toNat := by
  obtain ⟨z, named, small, text⟩ := ordinary_toList ht
  obtain ⟨k, y, year_s, log, front, long⟩ := long_year hs
  have digit : '-' :: remainder t < digits (k + 1) (y % 10 ^ (k + 1)) ++ '-' :: remainder s := by
    obtain ⟨c, rest, chars, digit⟩ := digits_succ k (y % 10 ^ (k + 1))
    rw [chars, List.cons_append, List.cons_lt_cons_iff]
    exact Or.inl (lt_of_lt_of_le (by decide) digit)
  have same : digits 4 z = digits 4 (y / 10 ^ (k + 1)) ↔ z = y / 10 ^ (k + 1) :=
    ⟨digits_inj small front, fun equal => by rw [equal]⟩
  have places : Nat.log 10 y - 3 = k + 1 := by omega
  rw [year_s, named, Int.toNat_natCast, leading, places, String.lt_iff_toList_lt, text, long,
    append_lt_append_iff (by simp), digits_lt_iff small front, same]
  simp only [digit, and_true]
  omega

/-- Texts and times are in the same order unless they clash. -/
theorem text_order {t : Time} (ht : Ordinary t) (s : Time) :
    (t < s ↔ rfc3339Nano t < rfc3339Nano s) ↔ ¬ Clash s t := by
  have years : ∀ {a b : Time}, second a ≤ second b → year a ≤ year b := year_mono
  obtain ⟨low, high⟩ := ht
  rcases Int.lt_or_le (year s) 0 with negative | positive
  · have text := negative_order negative ⟨low, high⟩
    have apart : second s < second t := by
      by_contra late
      have order := years (Int.not_lt.mp late)
      omega
    have early : s < t := (lt_iff_second s t).mpr (Or.inl apart)
    rw [Clash, if_neg (by omega)]
    exact iff_of_true (iff_of_false (lt_asymm early) (lt_asymm text)) fun h => by omega
  · rcases Int.lt_or_le (year s) 10000 with few | many
    · exact ordinary_order ⟨positive, by omega⟩ ⟨low, high⟩
    · have text := long_order many ⟨low, high⟩
      have apart : second t < second s := by
        by_contra late
        have order := years (Int.not_lt.mp late)
        omega
      have late : t < s := (lt_iff_second t s).mpr (Or.inl apart)
      rw [Clash, if_pos many, text]
      constructor
      · intro h
        have bound := h.mp late
        omega
      · intro h
        exact iff_of_true late (by omega)

end TimestampOrder
