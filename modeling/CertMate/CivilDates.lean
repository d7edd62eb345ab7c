import CertMate.Timestamps

/-!
# The order of dates

Year, month and day of the proleptic Gregorian calendar are ordered as the days
are.
-/
namespace CivilDates
open Timestamps

/-- The days of an era without its leap days, from which the year is read. -/
def leapless (dayOfEra : Nat) : Nat :=
  dayOfEra - dayOfEra / 1460 + dayOfEra / 36524 - dayOfEra / 146096

/-- The first day of a year of the era. -/
def start (year : Nat) : Nat := 365 * year + year / 4 - year / 100

theorem leapless_mono : Monotone leapless := by
  apply monotone_nat_of_le_succ
  intro n
  rw [leapless, leapless]
  omega

/-- The years of an era begin where their number changes. -/
theorem start_bounds :
    ∀ year < 400, (0 < year → leapless (start year - 1) < 365 * year) ∧
      365 * (year + 1) ≤ leapless (start year + 366) := by
  decide +kernel

theorem dayOfYear_bounds {n : Nat} (h : n < 146097) :
    leapless n / 365 < 400 ∧ start (leapless n / 365) ≤ n ∧ n ≤ start (leapless n / 365) + 365 := by
  have last : leapless n ≤ leapless 146096 := leapless_mono (by omega)
  have value : leapless 146096 = 145999 := by decide
  have bound : leapless n / 365 < 400 := by omega
  refine ⟨bound, ?_, ?_⟩
  · by_contra early
    have wide : 0 < leapless n / 365 := by
      rcases Nat.eq_zero_or_pos (leapless n / 365) with zero | wide
      · rw [zero] at early
        exact absurd (Nat.zero_le n) early
      · exact wide
    have before := (start_bounds _ bound).1 wide
    have mono : leapless n ≤ leapless (start (leapless n / 365) - 1) := leapless_mono (by omega)
    omega
  · by_contra late
    have after := (start_bounds _ bound).2
    have mono : leapless (start (leapless n / 365) + 366) ≤ leapless n := leapless_mono (by omega)
    omega

/-- A number for the month and the day, of years that begin in March. -/
def seasonal (dayOfYear : Nat) : Nat :=
  31 * ((5 * dayOfYear + 2) / 153) + (dayOfYear - (153 * ((5 * dayOfYear + 2) / 153) + 2) / 5)

theorem seasonal_strictMono : StrictMono seasonal := by
  apply strictMono_nat_of_lt_succ
  intro n
  rw [seasonal, seasonal]
  omega

theorem seasonal_bound {n : Nat} (h : n ≤ 365) : seasonal n < 372 := by
  rw [seasonal]
  omega

section
variable (days : Int)

def era : Int := (days + 719468) / 146097

def dayOfEra : Nat := ((days + 719468) % 146097).toNat

def yearOfEra : Nat := leapless (dayOfEra days) / 365

def dayOfYear : Nat := dayOfEra days - start (yearOfEra days)

/-- The months before it in a year that begins in March. -/
def shifted : Nat := (5 * dayOfYear days + 2) / 153

def dayOfMonth : Nat := dayOfYear days - (153 * shifted days + 2) / 5

theorem dayOfEra_lt : dayOfEra days < 146097 := by
  rw [dayOfEra]
  omega

theorem split_days : days + 719468 = 146097 * era days + dayOfEra days := by
  rw [era, dayOfEra]
  omega

theorem yearOfEra_lt : yearOfEra days < 400 := (dayOfYear_bounds (dayOfEra_lt days)).1

theorem split_era : dayOfEra days = start (yearOfEra days) + dayOfYear days := by
  have bounds := dayOfYear_bounds (dayOfEra_lt days)
  rw [dayOfYear, yearOfEra]
  omega

theorem dayOfYear_le : dayOfYear days ≤ 365 := by
  have bounds := dayOfYear_bounds (dayOfEra_lt days)
  rw [dayOfYear, yearOfEra]
  omega

theorem civil_eq : civil days =
    ((yearOfEra days : Int) + era days * 400 + (if shifted days < 10 then 0 else 1),
      (if shifted days < 10 then (shifted days : Int) + 3 else shifted days - 9),
      (dayOfMonth days : Int) + 1) := by
  have whole := split_days days
  have small := dayOfEra_lt days
  have part := split_era days
  have bound := dayOfYear_le days
  have q : (days + 719468) / 146097 = era days := rfl
  have r : (days + 719468) % 146097 = dayOfEra days := by omega
  have y : ((dayOfEra days : Int) - dayOfEra days / 1460 + dayOfEra days / 36524 -
      dayOfEra days / 146096) / 365 = yearOfEra days := by
    rw [yearOfEra, leapless]
    omega
  have d : (dayOfEra days : Int) - (365 * yearOfEra days + yearOfEra days / 4 -
      yearOfEra days / 100) = dayOfYear days := by
    rw [start] at part
    omega
  have m : (5 * (dayOfYear days : Int) + 2) / 153 = shifted days := by
    rw [shifted]
    omega
  simp only [civil, q, r, y, d, m, Prod.mk.injEq]
  rw [shifted, dayOfMonth, shifted]
  refine ⟨?_, ?_, ?_⟩
  · split <;> split <;> omega
  · split <;> split <;> omega
  · omega

/-- A number of a date in which a month has room for 31 days. -/
def ordinal : Int := 372 * (era days * 400 + yearOfEra days) + seasonal (dayOfYear days)

end

theorem ordinal_strictMono : StrictMono ordinal := by
  intro a b later
  have wholeA := split_days a
  have wholeB := split_days b
  have smallA := dayOfEra_lt a
  have smallB := dayOfEra_lt b
  have yearsA := yearOfEra_lt a
  have seasonA := seasonal_bound (dayOfYear_le a)
  rw [ordinal, ordinal]
  rcases Int.lt_trichotomy (era a) (era b) with before | same | after
  · omega
  · have days : dayOfEra a < dayOfEra b := by omega
    have years : yearOfEra a ≤ yearOfEra b := Nat.div_le_div_right (leapless_mono days.le)
    rcases Nat.lt_or_eq_of_le years with less | equal
    · omega
    · have partA := split_era a
      have partB := split_era b
      rw [equal] at partA
      have season := seasonal_strictMono (show dayOfYear a < dayOfYear b by omega)
      rw [same, equal]
      omega
  · omega

/-- Month and day are where a calendar has them. -/
theorem civil_bounds (days : Int) :
    (1 ≤ (civil days).2.1 ∧ (civil days).2.1 ≤ 12) ∧
      (1 ≤ (civil days).2.2 ∧ (civil days).2.2 ≤ 31) := by
  have bound := dayOfYear_le days
  have months : shifted days ≤ 11 := by
    rw [shifted]
    omega
  have inside : dayOfMonth days ≤ 30 := by
    rw [dayOfMonth, shifted]
    omega
  rw [civil_eq]
  dsimp only
  split <;> omega

theorem civil_ordinal (days : Int) :
    372 * (civil days).1 + 31 * (civil days).2.1 + (civil days).2.2 = ordinal days + 94 := by
  have season : seasonal (dayOfYear days) = 31 * shifted days + dayOfMonth days := rfl
  rw [civil_eq, ordinal, season]
  dsimp only
  split <;> omega

/-- Dates are compared year by year, month by month and day by day. -/
theorem lt_iff_civil (a b : Int) : a < b ↔ (civil a).1 < (civil b).1 ∨
    (civil a).1 = (civil b).1 ∧ ((civil a).2.1 < (civil b).2.1 ∨
      (civil a).2.1 = (civil b).2.1 ∧ (civil a).2.2 < (civil b).2.2) := by
  have boundsA := civil_bounds a
  have boundsB := civil_bounds b
  have numberA := civil_ordinal a
  have numberB := civil_ordinal b
  rw [← ordinal_strictMono.lt_iff_lt]
  omega

end CivilDates
