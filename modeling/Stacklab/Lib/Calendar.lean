import Mathlib.Data.Int.Basic

/-! Instants and the UTC calendar periods that they fall into. -/
namespace Stacklab.Lib

/-- Nanoseconds since the start of year 1 in UTC, the zero time of Go. -/
abbrev Instant : Type := ℤ

def minute : ℤ := 60000000000

/-- Days since 1 January of year 1, which was a Monday. -/
def dayNumber (t : Instant) : ℤ := t / (24 * 60 * minute)

structure Date where
  year : ℤ
  month : ℤ
  day : ℤ
  deriving DecidableEq, Repr

/-- The Gregorian date of a day number, counted in years that start in March. -/
def dateOfDay (n : ℤ) : Date :=
  let z := n + 306
  let era := z / 146097
  let doe := z % 146097
  let yoe := (doe - doe / 1460 + doe / 36524 - doe / 146096) / 365
  let doy := doe - (365 * yoe + yoe / 4 - yoe / 100)
  let mp := (5 * doy + 2) / 153
  let month := if mp < 10 then mp + 3 else mp - 9
  { year := yoe + era * 400 + (if month ≤ 2 then 1 else 0)
    month := month
    day := doy - (153 * mp + 2) / 5 + 1 }

/-- The day number of 1 January. -/
def firstDayOfYear (year : ℤ) : ℤ :=
  365 * (year - 1) + (year - 1) / 4 - (year - 1) / 100 + (year - 1) / 400

/-- Year and number of the ISO week, which belongs to the year of its Thursday. -/
def isoWeek (n : ℤ) : ℤ × ℤ :=
  let thursday := n - n % 7 + 3
  let year := (dateOfDay thursday).year
  (year, (thursday - firstDayOfYear year) / 7 + 1)

/-- Decimal digits, padded with zeros to a width. -/
def padded (width : ℕ) (n : ℤ) : String :=
  let digits := toString n.natAbs
  (if n < 0 then "-" else "") ++ String.ofList (List.replicate (width - digits.length) '0') ++ digits

def dayPeriod (t : Instant) : String :=
  let d := dateOfDay (dayNumber t)
  padded 4 d.year ++ "-" ++ padded 2 d.month ++ "-" ++ padded 2 d.day

def weekPeriod (t : Instant) : String :=
  let (year, week) := isoWeek (dayNumber t)
  padded 4 year ++ "-" ++ padded 2 week

def monthPeriod (t : Instant) : String :=
  let d := dateOfDay (dayNumber t)
  padded 4 d.year ++ "-" ++ padded 2 d.month

end Stacklab.Lib
