import CertMate.CertificateModel

/-!
# Times as text

The two layouts of package `time` that end up in directory names and in the
database.
-/
namespace Timestamps
open CertificateModel

def pad (width : Nat) (n : Int) : String :=
  "".pushn '0' (width - (toString n.natAbs).length) ++ toString n.natAbs

/-- Year, month and day of a day number, in the proleptic Gregorian calendar. -/
def civil (days : Int) : Int × Int × Int :=
  let z := days + 719468
  let era := z / 146097
  let dayOfEra := z % 146097
  let yearOfEra := (dayOfEra - dayOfEra / 1460 + dayOfEra / 36524 - dayOfEra / 146096) / 365
  let dayOfYear := dayOfEra - (365 * yearOfEra + yearOfEra / 4 - yearOfEra / 100)
  let shifted := (5 * dayOfYear + 2) / 153
  let month := if shifted < 10 then shifted + 3 else shifted - 9
  (yearOfEra + era * 400 + (if month ≤ 2 then 1 else 0), month,
    dayOfYear - (153 * shifted + 2) / 5 + 1)

/-- The layout `20060102T150405.000000000Z`. -/
def timestamp (t : Time) : String :=
  let seconds := t / 1000000000
  let (year, month, dayOfMonth) := civil (seconds / 86400)
  let clock := seconds % 86400
  (if year < 0 then "-" else "") ++ pad 4 year ++ pad 2 month ++ pad 2 dayOfMonth ++ "T" ++
    pad 2 (clock / 3600) ++ pad 2 (clock % 3600 / 60) ++ pad 2 (clock % 60) ++ "." ++
    pad 9 (t % 1000000000) ++ "Z"

/-- The fraction of a second without its trailing zeros, or nothing. -/
def fraction (nanoseconds : Int) : String :=
  let digits := ((pad 9 nanoseconds).toList.reverse.dropWhile (· == '0')).reverse
  if digits.isEmpty then "" else "." ++ String.ofList digits

/-- `time.RFC3339Nano` in UTC. -/
def rfc3339Nano (t : Time) : String :=
  let seconds := t / 1000000000
  let (year, month, dayOfMonth) := civil (seconds / 86400)
  let clock := seconds % 86400
  (if year < 0 then "-" else "") ++ pad 4 year ++ "-" ++ pad 2 month ++ "-" ++ pad 2 dayOfMonth ++
    "T" ++ pad 2 (clock / 3600) ++ ":" ++ pad 2 (clock % 3600 / 60) ++ ":" ++ pad 2 (clock % 60) ++
    fraction (t % 1000000000) ++ "Z"

example : timestamp 1700000000123456789 = "20231114T221320.123456789Z" := by decide +kernel

example : rfc3339Nano 1700000000120000000 = "2023-11-14T22:13:20.12Z" := by decide +kernel

end Timestamps
