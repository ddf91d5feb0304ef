/-! Dates of the proleptic Gregorian calendar and time stamps in universal time. -/
namespace BoundedPrintf

structure Date where
  year : Nat
  month : Nat
  day : Nat
  deriving DecidableEq, Repr

/-- The date so many days after 1970-01-01. Years are counted from March on, so that the leap day is
the last of its year and that of the fourth century the last of its era of 400 years. -/
def Date.ofDays (days : Nat) : Date :=
  let shifted := days + 719468
  let era := shifted / 146097
  let dayOfEra := shifted % 146097
  let yearOfEra := (dayOfEra - dayOfEra / 1460 + dayOfEra / 36524 - dayOfEra / 146096) / 365
  let dayOfYear := dayOfEra - (365 * yearOfEra + yearOfEra / 4 - yearOfEra / 100)
  let monthFromMarch := (5 * dayOfYear + 2) / 153
  let day := dayOfYear - (153 * monthFromMarch + 2) / 5 + 1
  let month := if monthFromMarch < 10 then monthFromMarch + 3 else monthFromMarch - 9
  { year := yearOfEra + era * 400 + (if month ≤ 2 then 1 else 0), month, day }

/-- A number with at least so many decimal digits. -/
def padded (width value : Nat) : String :=
  let digits := Nat.toDigits 10 value
  String.ofList (List.replicate (width - digits.length) '0' ++ digits)

/-- A point in time after 1970 to the millisecond. -/
structure Instant where
  seconds : Nat
  millis : Nat
  deriving DecidableEq, Repr

namespace Instant

/-- The time of a clock that shows seconds and nanoseconds since 1970. Earlier times count as the
start of 1970. -/
def ofClock (seconds : Int) (nanos : Nat) : Instant :=
  if seconds < 0 then ⟨0, 0⟩ else ⟨seconds.toNat, nanos / 1000000⟩

/-- The time stamp `YYYY-MM-DDThh:mm:ss.mmmZ`. -/
def stamp (instant : Instant) : String :=
  let date := Date.ofDays (instant.seconds / 86400)
  padded 4 date.year ++ "-" ++ padded 2 date.month ++ "-" ++ padded 2 date.day ++ "T" ++
    padded 2 (instant.seconds % 86400 / 3600) ++ ":" ++ padded 2 (instant.seconds % 3600 / 60) ++ ":" ++
    padded 2 (instant.seconds % 60) ++ "." ++ padded 3 instant.millis ++ "Z"

end Instant

end BoundedPrintf
