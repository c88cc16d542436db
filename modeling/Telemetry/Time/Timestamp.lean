/-
# Instants and their texts

Days are counted from 1970-01-01 in the proleptic Gregorian calendar.  An
instant may lie in a leap second: its nanoseconds then go on past the last
second of a minute up to two seconds, and the seconds shown are one more.
-/

import Telemetry.Text.Quoted

namespace Telemetry
namespace Time

/-- A point in time, counted from the start of 1970 without leap seconds. -/
structure Instant where
  seconds : Int
  /-- At most `1999999999`; from `1000000000` on inside a leap second. -/
  nanoseconds : Nat
  deriving DecidableEq, Inhabited

/-- A date of the proleptic Gregorian calendar. -/
structure CivilDate where
  year : Int
  month : Nat
  day : Nat
  deriving DecidableEq, Inhabited

/-- The date so many days after 1970-01-01.  The count is taken from 1 March
of year 0, so that a leap day is the last day of its year; 400 years are
146097 days, and from March on the months have 153 days in five. -/
def CivilDate.ofDays (days : Int) : CivilDate :=
  let z := days + 719468
  let era := Int.fdiv z 146097
  let doe := (z - era * 146097).toNat
  let yoe := (doe - doe / 1460 + doe / 36524 - doe / 146096) / 365
  let doy := doe - (365 * yoe + yoe / 4 - yoe / 100)
  let mp := (5 * doy + 2) / 153
  let month := if mp < 10 then mp + 3 else mp - 9
  ⟨yoe + era * 400 + (if month ≤ 2 then 1 else 0), month, doy - (153 * mp + 2) / 5 + 1⟩

/-- A date and a time of day as a clock shows them, with the part of the
second in nanoseconds. -/
structure ClockReading where
  date : CivilDate
  hour : Nat
  minute : Nat
  second : Nat
  nanosecond : Nat
  deriving DecidableEq

/-- What a clock shows that runs `offset` seconds ahead. -/
def Instant.reading (t : Instant) (offset : Int) : ClockReading :=
  let s := t.seconds + offset
  let ofDay := (Int.fmod s 86400).toNat
  { date := .ofDays (Int.fdiv s 86400)
    hour := ofDay / 3600
    minute := ofDay / 60 % 60
    second := ofDay % 60 + t.nanoseconds / 1000000000
    nanosecond := t.nanoseconds % 1000000000 }

/-- A year has at least four digits, and a sign outside of `0` to `9999`. -/
def yearText (year : Int) : String :=
  let digits := Text.padded 4 year.natAbs
  if year < 0 then "-" ++ digits else if 9999 < year then "+" ++ digits else digits

/-- Date and time of day down to the second. -/
def ClockReading.text (r : ClockReading) : String :=
  yearText r.date.year ++ "-" ++ Text.padded 2 r.date.month ++ "-" ++ Text.padded 2 r.date.day ++
    "T" ++ Text.padded 2 r.hour ++ ":" ++ Text.padded 2 r.minute ++ ":" ++ Text.padded 2 r.second

/-- An offset as hours and minutes, rounded to the minute, with the sign of
the exact offset. -/
def offsetText (offset : Int) : String :=
  let minutes := (offset.natAbs + 30) / 60
  (if offset < 0 then "-" else "+") ++ Text.padded 2 (minutes / 60) ++ ":" ++
    Text.padded 2 (minutes % 60)

/-- Tenths of a microsecond past the last second shown, with those of a leap
second cut off at the greatest of seven digits. -/
def Instant.ticks (t : Instant) : Nat := min (t.nanoseconds / 100) 9999999

/-- The text of an instant at an offset, with seven digits of the second. -/
def Instant.text (t : Instant) (offset : Int) : String :=
  (t.reading offset).text ++ "." ++ Text.padded 7 t.ticks ++ offsetText offset

/-- The part of a second with the fewest of 0, 3, 6 or 9 digits that are
exact. -/
def fractionText (nanosecond : Nat) : String :=
  if nanosecond = 0 then ""
  else if nanosecond % 1000000 = 0 then "." ++ Text.padded 3 (nanosecond / 1000000)
  else if nanosecond % 1000 = 0 then "." ++ Text.padded 6 (nanosecond / 1000)
  else "." ++ Text.padded 9 nanosecond

/-- The text of an instant in universal time, as exact as need be. -/
def Instant.universalText (t : Instant) : String :=
  let r := t.reading 0
  r.text ++ fractionText r.nanosecond ++ "Z"

end Time
end Telemetry
