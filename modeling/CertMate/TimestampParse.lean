import CertMate.TimestampOrder

/-!
# Reading stored times

`time.Parse` with the layout `time.RFC3339Nano`, as its path for RFC 3339 texts
has it, and that it reads back what was written.
-/
namespace TimestampParse
open CertificateModel Timestamps DecimalTexts CivilDates TimestampOrder

def isDigit (c : Char) : Bool := '0' ≤ c && c ≤ '9'

def decimal (s : List Char) : Nat := s.foldl (fun x c => 10 * x + (c.toNat - 48)) 0

def parseUint (s : List Char) (least most : Nat) : Option Nat :=
  if s.all isDigit ∧ least ≤ decimal s ∧ decimal s ≤ most then some (decimal s) else none

def isLeap (year : Nat) : Bool := year % 4 = 0 && (year % 100 != 0 || year % 400 = 0)

def daysIn (month year : Nat) : Nat :=
  if month = 2 then if isLeap year then 29 else 28 else 30 + (month + month / 8) % 2

/-- The number of a day of the proleptic Gregorian calendar. -/
def daysFromCivil (year month day : Nat) : Int :=
  let shifted := if month ≤ 2 then month + 9 else month - 3
  let years : Int := if month ≤ 2 then (year : Int) - 1 else year
  let yearOfEra := years % 400
  years / 400 * 146097 + (365 * yearOfEra + yearOfEra / 4 - yearOfEra / 100) +
    ((153 * shifted + 2) / 5 + day - 1 : Nat) - 719468

/-- Nine digits count; further ones are cut off. -/
def parseNanoseconds (fraction : List Char) : Nat :=
  decimal (fraction.take 9) * 10 ^ (9 - (fraction.take 9).length)

def slice (s : List Char) (i j : Nat) : List Char := (s.drop i).take (j - i)

/-- The fraction of the second, and what follows it. -/
def parseFraction : List Char → Nat × List Char
  | '.' :: s =>
    if s.takeWhile isDigit = [] then (0, '.' :: s)
    else (parseNanoseconds (s.takeWhile isDigit), s.dropWhile isDigit)
  | s => (0, s)

/-- The offset of the zone in seconds. -/
def parseZone (s : List Char) : Option Int :=
  if s = ['Z'] then some 0
  else if s.length ≠ 6 then none
  else do
    let hour ← parseUint (slice s 1 3) 0 23
    let minute ← parseUint (slice s 4 6) 0 59
    if s[3]? = some ':' then
      if s[0]? = some '+' then some ((hour * 60 + minute) * 60)
      else if s[0]? = some '-' then some (-((hour * 60 + minute) * 60))
      else none
    else none

def parseRFC3339 (s : List Char) : Option Time :=
  if s.length < 19 then none
  else do
    let year ← parseUint (slice s 0 4) 0 9999
    let month ← parseUint (slice s 5 7) 1 12
    let day ← parseUint (slice s 8 10) 1 (daysIn month year)
    let hour ← parseUint (slice s 11 13) 0 23
    let minute ← parseUint (slice s 14 16) 0 59
    let second ← parseUint (slice s 17 19) 0 59
    if s[4]? = some '-' ∧ s[7]? = some '-' ∧ s[10]? = some 'T' ∧ s[13]? = some ':' ∧
        s[16]? = some ':' then
      let (nanosecond, zone) := parseFraction (s.drop 19)
      let offset ← parseZone zone
      some ((daysFromCivil year month day * 86400 + (hour * 3600 + minute * 60 + second : Nat) -
        offset) * 1000000000 + nanosecond)
    else none

def parse (text : String) : Option Time := parseRFC3339 text.toList

/-- `nil`, or a time that can be read. -/
def parseNull : Option String → Option (Option Time)
  | none => some none
  | some text => (parse text).map some

example : parse "2026-02-29T00:00:00Z" = none := by decide +kernel

example : parse "2024-02-29T12:30:00.25+02:00" = parse "2024-02-29T10:30:00.25Z" := by
  decide +kernel

theorem decimal_append (s s' : List Char) :
    decimal (s ++ s') = decimal s * 10 ^ s'.length + decimal s' := by
  have continued : ∀ (s' : List Char) (x : Nat),
      s'.foldl (fun x c => 10 * x + (c.toNat - 48)) x = x * 10 ^ s'.length + decimal s' := by
    intro s'
    induction s' with
    | nil => intro x; simp [decimal]
    | cons c s' ih =>
      intro x
      rw [decimal, List.foldl_cons, List.foldl_cons, ih, ih, List.length_cons, Nat.pow_succ]
      ring
  rw [decimal, List.foldl_append, continued]
  rfl

theorem isDigit_of_mem {w n : Nat} {c : Char} (h : c ∈ digits w n) : isDigit c = true := by
  induction w generalizing n with
  | zero => cases h
  | succ w ih =>
    rw [digits, List.mem_append, List.mem_singleton] at h
    rcases h with front | rfl
    · exact ih front
    · have small : n % 10 < 10 := Nat.mod_lt _ (by decide)
      generalize n % 10 = d at small
      revert d
      decide

theorem decimal_digits {w n : Nat} (h : n < 10 ^ w) : decimal (digits w n) = n := by
  induction w generalizing n with
  | zero =>
    rw [Nat.pow_zero] at h
    rw [digits]
    exact (Nat.lt_one_iff.mp h).symm
  | succ w ih =>
    rw [Nat.pow_succ] at h
    have last : decimal [Nat.digitChar (n % 10)] = n % 10 := by
      have small : n % 10 < 10 := Nat.mod_lt _ (by decide)
      rw [decimal, List.foldl_cons, List.foldl_nil, Nat.toNat_digitChar_of_lt_ten small]
      omega
    rw [digits, decimal_append, ih (by omega), last, List.length_singleton]
    omega

theorem parseUint_digits {w n least most : Nat} (h : n < 10 ^ w) (lower : least ≤ n)
    (upper : n ≤ most) : parseUint (digits w n) least most = some n := by
  have all : (digits w n).all isDigit = true := List.all_eq_true.mpr fun c h => isDigit_of_mem h
  rw [parseUint, decimal_digits h, if_pos ⟨all, lower, upper⟩]

theorem trim_append (l : List Char) :
    trim l ++ List.replicate (l.length - (trim l).length) '0' = l := by
  induction l with
  | nil => rfl
  | cons c l ih =>
    have short : (trim l).length ≤ l.length := by
      have size := congrArg List.length ih
      rw [List.length_append] at size
      omega
    rw [trim_cons]
    split
    · rename_i zeros
      rw [zeros.1] at ih
      rw [List.nil_append, List.length_nil, List.length_cons, zeros.2, Nat.sub_zero,
        List.replicate_succ]
      rw [List.nil_append, List.length_nil, Nat.sub_zero] at ih
      rw [ih]
    · rw [List.cons_append, List.length_cons, List.length_cons, Nat.add_sub_add_right, ih]

theorem parseNanoseconds_trim {n : Nat} (h : n < 10 ^ 9) :
    parseNanoseconds (trim (digits 9 n)) = n := by
  have whole := trim_append (digits 9 n)
  have value := decimal_digits h
  rw [digits_length] at whole
  have short : (trim (digits 9 n)).length ≤ 9 := by
    have size := congrArg List.length whole
    rw [List.length_append, digits_length] at size
    omega
  have zeros : ∀ k, decimal (List.replicate k '0') = 0 := by
    intro k
    induction k with
    | zero => rfl
    | succ k ih =>
      rw [List.replicate_succ', decimal_append, ih, Nat.zero_mul]
      rfl
  rw [← whole, decimal_append, zeros, List.length_replicate, Nat.add_zero] at value
  rw [parseNanoseconds, List.take_of_length_le short]
  exact value

theorem parseFraction_ending {n : Nat} (h : n < 10 ^ 9) :
    parseFraction (ending (digits 9 n)) = (n, ['Z']) := by
  have value := parseNanoseconds_trim h
  rw [ending]
  by_cases none : trim (digits 9 n) = []
  · rw [none] at value
    rw [if_pos none, ← value]
    rfl
  · have inside : ∀ c ∈ trim (digits 9 n), isDigit c = true := fun c h =>
      isDigit_of_mem (mem_of_mem_trim h)
    have front : (trim (digits 9 n) ++ ['Z']).takeWhile isDigit = trim (digits 9 n) := by
      rw [List.takeWhile_append_of_pos inside]
      exact List.append_nil _
    have rest : (trim (digits 9 n) ++ ['Z']).dropWhile isDigit = ['Z'] := by
      rw [List.dropWhile_append_of_pos inside]
      rfl
    rw [if_neg none, List.cons_append, parseFraction, front, rest, if_neg none, value]

theorem daysFromCivil_civil (days : Int) {y m d : Nat}
    (date : civil days = ((y : Int), (m : Int), (d : Int))) :
    daysFromCivil y m d = days := by
  have whole := split_days days
  have part := split_era days
  have small := yearOfEra_lt days
  have bound := dayOfYear_le days
  have inside : dayOfYear days = (153 * shifted days + 2) / 5 + dayOfMonth days := by
    rw [dayOfMonth, shifted]
    omega
  have months : shifted days ≤ 11 := by
    rw [shifted]
    omega
  rw [civil_eq, Prod.mk.injEq, Prod.mk.injEq] at date
  obtain ⟨years, month, day⟩ := date
  rw [start] at part
  rw [daysFromCivil]
  by_cases early : shifted days < 10
  · rw [if_pos early] at years month
    have season : m - 3 = shifted days := by omega
    have quotient : (y : Int) / 400 = era days := by omega
    have remaining : (y : Int) % 400 = yearOfEra days := by omega
    rw [if_neg (by omega), if_neg (by omega), season, quotient, remaining]
    omega
  · rw [if_neg early] at years month
    have season : m + 9 = shifted days := by omega
    have quotient : ((y : Int) - 1) / 400 = era days := by omega
    have remaining : ((y : Int) - 1) % 400 = yearOfEra days := by omega
    rw [if_pos (by omega), if_pos (by omega), season, quotient, remaining]
    omega

/-- Where the next year of the era begins. -/
theorem start_next : ∀ year < 399, 365 * (year + 1) ≤ leapless (start (year + 1)) ∧
    start (year + 1) = start year + 365 + (if isLeap (year + 1) then 1 else 0) := by
  decide +kernel

theorem monthDay_le (days : Int) {y m d : Nat}
    (date : civil days = ((y : Int), (m : Int), (d : Int))) :
    d ≤ daysIn m y := by
  have small := yearOfEra_lt days
  have bound := dayOfYear_le days
  have inside : dayOfYear days = (153 * shifted days + 2) / 5 + dayOfMonth days := by
    rw [dayOfMonth, shifted]
    omega
  have season : (5 * dayOfYear days + 2) / 153 = shifted days := rfl
  rw [civil_eq, Prod.mk.injEq, Prod.mk.injEq] at date
  obtain ⟨years, month, day⟩ := date
  rw [daysIn]
  by_cases february : m = 2
  · have later : ¬ shifted days < 10 := by
      intro early
      rw [if_pos early] at month
      omega
    rw [if_neg later] at years month
    rw [if_pos february]
    rcases Nat.lt_or_eq_of_le (Nat.le_of_lt_succ small) with less | last
    · obtain ⟨next, length⟩ := start_next _ less
      have before : dayOfEra days < start (yearOfEra days + 1) := by
        by_contra late
        have mono := leapless_mono (Nat.not_lt.mp late)
        have year : leapless (dayOfEra days) / 365 = yearOfEra days := rfl
        omega
      have part := split_era days
      have same : isLeap y = isLeap (yearOfEra days + 1) := by
        have cycle : y % 4 = (yearOfEra days + 1) % 4 ∧ y % 100 = (yearOfEra days + 1) % 100 ∧
            y % 400 = (yearOfEra days + 1) % 400 := by omega
        rw [isLeap, isLeap, cycle.1, cycle.2.1, cycle.2.2]
      rw [same]
      split at length
      · rename_i leap
        rw [if_pos leap]
        omega
      · rename_i common
        rw [if_neg common]
        omega
    · have leap : isLeap y = true := by
        have cycle : y % 4 = 0 ∧ y % 400 = 0 := by omega
        rw [isLeap, cycle.1, cycle.2]
        simp
      rw [if_pos leap]
      omega
  · rw [if_neg february]
    have length : ∀ k < 10, (153 * (k + 1) + 2) / 5 ≤
        (153 * k + 2) / 5 + 30 + (k + 3 + (k + 3) / 8) % 2 := by decide
    split at month
    · rename_i early
      have room := length _ early
      rw [show m = shifted days + 3 by omega]
      omega
    · rw [show m = 1 by omega]
      omega

theorem digits_two (n : Nat) : ∃ a b, digits 2 n = [a, b] := ⟨_, _, rfl⟩

/-- Fields in their places. -/
theorem parseRFC3339_fields {year month day hour minute second nanosecond : Nat}
    (hyear : year ≤ 9999) (hmonth : 1 ≤ month ∧ month ≤ 12)
    (hday : 1 ≤ day ∧ day ≤ daysIn month year) (hhour : hour ≤ 23) (hminute : minute ≤ 59)
    (hsecond : second ≤ 59) (hnanosecond : nanosecond < 10 ^ 9) :
    parseRFC3339 (digits 4 year ++ '-' :: (digits 2 month ++ '-' :: (digits 2 day ++ 'T' ::
      (digits 2 hour ++ ':' :: (digits 2 minute ++ ':' :: (digits 2 second ++
        ending (digits 9 nanosecond))))))) =
      some ((daysFromCivil year month day * 86400 + (hour * 3600 + minute * 60 + second : Nat)) *
        1000000000 + nanosecond) := by
  have most : daysIn month year ≤ 31 := by
    rw [daysIn]
    split
    · split <;> decide
    · omega
  have readYear := parseUint_digits (w := 4) (by omega) (Nat.zero_le year) hyear
  have readMonth := parseUint_digits (w := 2) (by omega) hmonth.1 hmonth.2
  have readDay := parseUint_digits (w := 2) (by omega) hday.1 hday.2
  have readHour := parseUint_digits (w := 2) (by omega) (Nat.zero_le hour) hhour
  have readMinute := parseUint_digits (w := 2) (by omega) (Nat.zero_le minute) hminute
  have readSecond := parseUint_digits (w := 2) (by omega) (Nat.zero_le second) hsecond
  obtain ⟨y₁, y₂, y₃, y₄, year_eq⟩ : ∃ a b c d, digits 4 year = [a, b, c, d] := ⟨_, _, _, _, rfl⟩
  obtain ⟨m₁, m₂, month_eq⟩ := digits_two month
  obtain ⟨d₁, d₂, day_eq⟩ := digits_two day
  obtain ⟨h₁, h₂, hour_eq⟩ := digits_two hour
  obtain ⟨i₁, i₂, minute_eq⟩ := digits_two minute
  obtain ⟨s₁, s₂, second_eq⟩ := digits_two second
  have fraction := parseFraction_ending hnanosecond
  generalize ending (digits 9 nanosecond) = tail at fraction
  rw [year_eq] at readYear ⊢
  rw [month_eq] at readMonth ⊢
  rw [day_eq] at readDay ⊢
  rw [hour_eq] at readHour ⊢
  rw [minute_eq] at readMinute ⊢
  rw [second_eq] at readSecond ⊢
  simp only [List.cons_append, List.nil_append, parseRFC3339, slice, List.drop_succ_cons,
    List.drop_zero, List.take_succ_cons, List.take_zero, Nat.reduceSub, readYear, readMonth,
    readHour, readMinute, readSecond, fraction]
  rw [if_neg (by simp only [List.length_cons]; omega)]
  simp only [Option.bind_eq_bind, Option.bind_some, readDay]
  have zone : parseZone ['Z'] = some 0 := rfl
  rw [if_pos ⟨rfl, rfl, rfl, rfl, rfl⟩, zone, Option.bind_some, Int.sub_zero]

/-- A time of an ordinary year is read as it was written. -/
theorem parse_rfc3339Nano {t : Time} (ht : Ordinary t) : parse (rfc3339Nano t) = some t := by
  obtain ⟨y, named, small, text⟩ := ordinary_toList ht
  have date : civil (second t / 86400) = ((y : Int), (month t : Int), (monthDay t : Int)) :=
    Prod.ext named (Prod.ext (civil_month t) (civil_monthDay t))
  have days := daysFromCivil_civil _ date
  have clocks := clock_eq t
  have short := clock_lt t
  rw [parse, text, remainder, parseRFC3339_fields (by omega) (month_bounds t)
    ⟨(monthDay_bounds t).1, monthDay_le _ date⟩ (by omega) (by omega) (by omega)
    (nanoseconds_lt t), days]
  have whole : t = second t * 1000000000 + nanoseconds t := by
    have nano : (nanoseconds t : Int) = t % 1000000000 :=
      Int.toNat_of_nonneg (Int.emod_nonneg t (by decide))
    rw [nano]
    exact (Int.ediv_mul_add_emod t 1000000000).symm
  have seconds : second t / 86400 * 86400 +
      (clock t / 3600 * 3600 + clock t % 3600 / 60 * 60 + clock t % 60 : Nat) = second t := by
    omega
  rw [seconds, ← whole]

/-- Four digits and a dash are what is read first. -/
theorem parseRFC3339_shape {s : List Char} {t : Time} (h : parseRFC3339 s = some t) :
    (s.take 4).all isDigit = true ∧ s[4]? = some '-' := by
  rw [parseRFC3339] at h
  split at h
  · cases h
  · simp only [Option.bind_eq_bind, Option.bind_eq_some_iff] at h
    obtain ⟨year, front, month, -, day, -, hour, -, minute, -, second, -, rest⟩ := h
    constructor
    · rw [parseUint] at front
      split at front
      · rename_i valid
        exact valid.1
      · cases front
    · split at rest
      · rename_i marks
        exact marks.1
      · cases rest

/-- A time of another year cannot be read. -/
theorem parse_extraordinary {t : Time} (h : ¬ Ordinary t) : parse (rfc3339Nano t) = none := by
  by_contra some_
  obtain ⟨t', read⟩ := Option.ne_none_iff_exists'.mp some_
  obtain ⟨front, dash⟩ := parseRFC3339_shape read
  rcases Int.lt_or_le (year t) 0 with negative | positive
  · rw [rfc3339Nano_toList, if_pos negative, List.singleton_append, List.take_succ_cons] at front
    cases front
  · have many : 10000 ≤ year t := by
      by_contra few
      exact h ⟨positive, by omega⟩
    obtain ⟨k, y, -, -, -, long⟩ := long_year many
    obtain ⟨c, rest, chars, digit⟩ := digits_succ k (y % 10 ^ (k + 1))
    rw [long, List.getElem?_append_right (by simp), digits_length, chars] at dash
    have sign : c = '-' := Option.some.inj dash
    rw [sign] at digit
    exact absurd digit (by decide)

theorem parseNull_map {value : Option Time} (h : ∀ t, value = some t → Ordinary t) :
    parseNull (value.map rfc3339Nano) = some value := by
  cases value with
  | none => rfl
  | some t =>
    rw [Option.map_some, parseNull, parse_rfc3339Nano (h t rfl)]
    rfl

/-- What is read of a written time is the time. -/
theorem ordinary_of_parse {t t' : Time} (h : parse (rfc3339Nano t) = some t') : Ordinary t := by
  by_contra other
  rw [parse_extraordinary other] at h
  cases h

theorem ordinary_of_parseNull {value value' : Option Time}
    (h : parseNull (value.map rfc3339Nano) = some value') : ∀ t, value = some t → Ordinary t := by
  rintro t rfl
  rw [Option.map_some, parseNull] at h
  obtain ⟨t', read, -⟩ := Option.map_eq_some_iff.mp h
  exact ordinary_of_parse read

end TimestampParse
