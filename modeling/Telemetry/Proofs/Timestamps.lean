/-
# Timestamps are read back

The text of an instant has a fixed form for the years from 0 to 9999: seven
numbers, each with its own number of digits and marks between them, and then the
offset (`text_toList`).  The numbers are a date of the calendar and a time of day
(`stamp_valid`).  Counted from 1970 and set back by the offset they are the
instant again, down to tenths of a microsecond (`stamp_instant`).

The reader goes through a text from the left and takes nothing that is not of
the form.  That it gets the numbers and the offset is shown part by part, each
with any text after it (`Stamp.Spelled.read`, `readOffset_offsetText`), and so an
instant is read back from the text in an attribute (`instant_read_back`).
-/

import Telemetry.Attribute.Value
import Telemetry.Proofs.Calendar
import Telemetry.Proofs.Digits
import Mathlib.Data.List.Forall2

namespace Telemetry
namespace Time

open Text

/-! ### The form of a timestamp -/

/-- Whether a character can stand where the form has another one: a zero is for
any digit, a plus for either sign, and all else for itself. -/
def Fits (form c : Char) : Prop :=
  if form = '0' then c.isDigit else if form = '+' then c = '+' ∨ c = '-' else c = form

/-- A text of just the form of a timestamp. -/
def Formed (text : String) : Prop :=
  List.Forall₂ Fits "0000-00-00T00:00:00.0000000+00:00".toList text.toList

/-- Digits fit where zeros stand. -/
theorem fits_spells {width n : Nat} {cs : List Char} (h : Spells width n cs) :
    List.Forall₂ Fits (List.replicate width '0') cs := by
  obtain ⟨rfl, hdigit, -⟩ := h
  induction cs with
  | nil => exact .nil
  | cons c cs ih =>
    exact .cons (hdigit c (.head cs)) (ih fun d hd => hdigit d (.tail c hd))

/-! ### The numbers of a timestamp -/

/-- The numbers in a timestamp. -/
structure Stamp where
  year : Nat
  month : Nat
  day : Nat
  hour : Nat
  minute : Nat
  second : Nat
  /-- Tenths of a microsecond. -/
  tick : Nat
  deriving DecidableEq

namespace Stamp

variable {s : Stamp}

/-- The date in a timestamp. -/
def date (s : Stamp) : CivilDate := ⟨s.year, s.month, s.day⟩

/-- A date of the calendar, and a time of day outside of leap seconds. -/
structure Valid (s : Stamp) : Prop where
  date : s.date.Valid
  hour_lt : s.hour < 24
  minute_lt : s.minute < 60
  second_lt : s.second < 60
  tick_lt : s.tick < 10000000

/-- When a clock that runs `offset` seconds ahead shows the numbers. -/
def instant (s : Stamp) (offset : Int) : Instant where
  seconds := s.date.days * 86400 + s.hour * 3600 + s.minute * 60 + s.second - offset
  nanoseconds := s.tick * 100

/-- The numbers with the marks between them. -/
def chars (s : Stamp) : List Char :=
  (padded 4 s.year).toList ++ '-' :: ((padded 2 s.month).toList ++ '-' ::
    ((padded 2 s.day).toList ++ 'T' :: ((padded 2 s.hour).toList ++ ':' ::
      ((padded 2 s.minute).toList ++ ':' :: ((padded 2 s.second).toList ++ '.' ::
        (padded 7 s.tick).toList)))))

/-- All numbers have no more digits than there is room for. -/
structure Spelled (s : Stamp) : Prop where
  year : Spells 4 s.year (padded 4 s.year).toList
  month : Spells 2 s.month (padded 2 s.month).toList
  day : Spells 2 s.day (padded 2 s.day).toList
  hour : Spells 2 s.hour (padded 2 s.hour).toList
  minute : Spells 2 s.minute (padded 2 s.minute).toList
  second : Spells 2 s.second (padded 2 s.second).toList
  tick : Spells 7 s.tick (padded 7 s.tick).toList

/-- Reads the numbers and the marks between them. -/
def read (s : List Char) : Option (Stamp × List Char) := do
  let (year, s) ← readField 4 '-' s
  let (month, s) ← readField 2 '-' s
  let (day, s) ← readField 2 'T' s
  let (hour, s) ← readField 2 ':' s
  let (minute, s) ← readField 2 ':' s
  let (second, s) ← readField 2 '.' s
  let (tick, s) ← readNumber 7 s
  return (⟨year, month, day, hour, minute, second, tick⟩, s)

/-- **Reading a timestamp gives the numbers that were written**, and what follows them. -/
theorem Spelled.read (h : s.Spelled) (rest : List Char) :
    Stamp.read (s.chars ++ rest) = some (s, rest) := by
  simp [Stamp.read, chars, readField_spells h.year, readField_spells h.month,
    readField_spells h.day, readField_spells h.hour, readField_spells h.minute,
    readField_spells h.second, readNumber_spells h.tick]

/-- What is written has the form of a timestamp. -/
theorem Spelled.fits (h : s.Spelled) :
    List.Forall₂ Fits "0000-00-00T00:00:00.0000000".toList s.chars :=
  List.rel_append (fits_spells h.year) <| .cons rfl <|
    List.rel_append (fits_spells h.month) <| .cons rfl <|
    List.rel_append (fits_spells h.day) <| .cons rfl <|
    List.rel_append (fits_spells h.hour) <| .cons rfl <|
    List.rel_append (fits_spells h.minute) <| .cons rfl <|
    List.rel_append (fits_spells h.second) <| .cons rfl (fits_spells h.tick)

end Stamp

/-! ### Offsets -/

/-- Reads an offset of hours and minutes, in seconds. -/
def readOffset (s : List Char) : Option (Int × List Char) := do
  let (sign, s) ← readSign s
  let (hours, s) ← readField 2 ':' s
  let (minutes, s) ← readNumber 2 s
  guard (hours < 24 ∧ minutes < 60)
  return (sign * ((hours * 60 + minutes) * 60), s)

section Offset

variable {offset : Int}

/-- An offset of whole minutes is hours and minutes after its sign. -/
theorem offsetText_toList (h : 60 ∣ offset) : (offsetText offset).toList =
    (if offset < 0 then '-' else '+') :: ((padded 2 (offset.natAbs / 60 / 60)).toList ++ ':' ::
      (padded 2 (offset.natAbs / 60 % 60)).toList) := by
  have hround : (offset.natAbs + 30) / 60 = offset.natAbs / 60 := by omega
  rw [offsetText, hround]
  split_ifs <;> simp [String.toList_append]

/-- The hours of an offset of less than a day have two digits. -/
theorem hours_spells (hlo : -86400 < offset) (hhi : offset < 86400) :
    Spells 2 (offset.natAbs / 60 / 60) (padded 2 (offset.natAbs / 60 / 60)).toList :=
  padded_spells (by decide) (by omega)

/-- The minutes of an offset always have two digits. -/
theorem minutes_spells (offset : Int) :
    Spells 2 (offset.natAbs / 60 % 60) (padded 2 (offset.natAbs / 60 % 60)).toList :=
  padded_spells (by decide) (by omega)

/-- An offset of whole minutes is read back. -/
theorem readOffset_offsetText (h : 60 ∣ offset) (hlo : -86400 < offset) (hhi : offset < 86400)
    (rest : List Char) :
    readOffset ((offsetText offset).toList ++ rest) = some (offset, rest) := by
  have hhours (s : List Char) := readField_spells (c := ':') (hours_spells hlo hhi) s
  have hminutes := readNumber_spells (minutes_spells offset)
  have hlt : offset.natAbs / 60 / 60 < 24 ∧ offset.natAbs / 60 % 60 < 60 := by omega
  have hsum : offset.natAbs = (offset.natAbs / 60 / 60 * 60 + offset.natAbs / 60 % 60) * 60 := by
    omega
  rw [offsetText_toList h]
  generalize offset.natAbs / 60 / 60 = hours at *
  generalize offset.natAbs / 60 % 60 = minutes at *
  split_ifs with hneg <;> simp [readOffset, readSign, hhours, hminutes, hlt] <;> omega

/-- An offset is written with its sign, hours and minutes. -/
theorem fits_offsetText (h : 60 ∣ offset) (hlo : -86400 < offset) (hhi : offset < 86400) :
    List.Forall₂ Fits "+00:00".toList (offsetText offset).toList := by
  have hsign : Fits '+' (if offset < 0 then '-' else '+') := by
    split_ifs <;> simp [Fits]
  rw [offsetText_toList h]
  exact .cons hsign <| List.rel_append (fits_spells (hours_spells hlo hhi)) <| .cons rfl <|
    fits_spells (minutes_spells offset)

end Offset

/-- Reads a timestamp and its offset, and nothing after it. -/
def readTimestamp (text : String) : Option (Stamp × Int) := do
  let (stamp, s) ← Stamp.read text.toList
  let (offset, s) ← readOffset s
  guard (s = [])
  return (stamp, offset)

/-! ### The timestamp of an instant -/

namespace Instant

/-- The day a clock shows, counted from 1970-01-01. -/
def clockDay (t : Instant) (offset : Int) : Int := (t.seconds + offset) / 86400

/-- The seconds of this day that are over. -/
def clockSecond (t : Instant) (offset : Int) : Nat := ((t.seconds + offset) % 86400).toNat

/-- The numbers in the text of an instant. -/
def stamp (t : Instant) (offset : Int) : Stamp :=
  let r := t.reading offset
  ⟨r.date.year.toNat, r.date.month, r.date.day, r.hour, r.minute, r.second, t.ticks⟩

/-- Four digits are enough for the year that a clock shows. -/
structure YearFits (t : Instant) (offset : Int) : Prop where
  year_nonneg : 0 ≤ (t.reading offset).date.year
  year_le : (t.reading offset).date.year ≤ 9999

variable {t : Instant} {offset : Int}

/-- A clock shows less than a day of seconds. -/
theorem clockSecond_lt (t : Instant) (offset : Int) : t.clockSecond offset < 86400 := by
  unfold clockSecond
  omega

/-- Day and second together are the seconds of the instant, as far ahead as the clock is. -/
theorem seconds_eq (t : Instant) (offset : Int) :
    t.clockDay offset * 86400 + t.clockSecond offset = t.seconds + offset := by
  unfold clockDay clockSecond
  omega

/-- What a clock shows, by day and second. -/
theorem reading_eq (t : Instant) (offset : Int) : t.reading offset =
    { date := .ofDays (t.clockDay offset)
      hour := t.clockSecond offset / 3600
      minute := t.clockSecond offset / 60 % 60
      second := t.clockSecond offset % 60 + t.nanoseconds / 1000000000
      nanosecond := t.nanoseconds % 1000000000 } := by
  rw [reading, Int.fdiv_eq_ediv_of_nonneg _ (by decide), Int.fmod_eq_emod_of_nonneg _ (by decide)]
  rfl

/-- The date in the text is that of the day on the clock. -/
theorem stamp_date (h : t.YearFits offset) :
    (t.stamp offset).date = .ofDays (t.clockDay offset) := by
  have hyear := h.year_nonneg
  rw [reading_eq] at hyear
  simp [Stamp.date, stamp, reading_eq, Int.toNat_of_nonneg hyear]

/-- All numbers in the text of an instant have room, leap seconds included. -/
theorem stamp_spelled (h : t.YearFits offset) (hnano : t.nanoseconds < 2000000000) :
    (t.stamp offset).Spelled := by
  have hdate := ofDays_valid (t.clockDay offset)
  have hmonth := hdate.month_le
  have hday := hdate.day_le.trans (daysInMonth_le _ _)
  have hyear := h.year_le
  have hsecond := clockSecond_lt t offset
  have htick : t.ticks ≤ 9999999 := Nat.min_le_right _ _
  simp only [reading_eq] at hyear
  constructor <;> apply padded_spells (by decide) <;> simp only [stamp, reading_eq] <;> omega

/-- **The text of an instant is its numbers and the offset.** -/
theorem text_toList (h : t.YearFits offset) :
    (t.text offset).toList = (t.stamp offset).chars ++ (offsetText offset).toList := by
  have hlo := h.year_nonneg
  have hhi := h.year_le
  have hyear : yearText (t.reading offset).date.year =
      padded 4 (t.reading offset).date.year.toNat := by
    rw [yearText, if_neg (by omega), if_neg (by omega)]
    congr 1
    omega
  simp [text, ClockReading.text, hyear, stamp, Stamp.chars, String.toList_append]

/-- Outside of leap seconds they are a date and a time of day. -/
theorem stamp_valid (h : t.YearFits offset) (hnano : t.nanoseconds < 1000000000) :
    (t.stamp offset).Valid := by
  have hsecond := clockSecond_lt t offset
  have htick : t.ticks ≤ 9999999 := Nat.min_le_right _ _
  refine ⟨?_, ?_, ?_, ?_, by simp only [stamp]; omega⟩
  · rw [stamp_date h]
    exact ofDays_valid _
  all_goals
    simp only [stamp, reading_eq]
    omega

/-- **The numbers tell the instant, down to tenths of a microsecond.** -/
theorem stamp_instant (h : t.YearFits offset) (hnano : t.nanoseconds < 1000000000) :
    (t.stamp offset).instant offset = ⟨t.seconds, t.nanoseconds / 100 * 100⟩ := by
  have hsum := seconds_eq t offset
  rw [Stamp.instant, stamp_date h, days_ofDays]
  simp only [stamp, reading_eq, ticks, mk.injEq]
  omega

end Instant

/-- **An instant outside of leap seconds is read back from the text of its
attribute.**  The text is of the form of a timestamp and nothing else, its
numbers are a date of the calendar and a time of day, and from them and the
offset comes the instant, rounded down to tenths of a microsecond. -/
theorem instant_read_back {t : Instant} {offset : Int} (hnano : t.nanoseconds < 1000000000)
    (hminutes : 60 ∣ offset) (hlo : -86400 < offset) (hhi : offset < 86400)
    (hfits : t.YearFits offset) :
    ∃ text stamp, Value.ofInstant t offset = .text text ∧ Formed text ∧
      readTimestamp text = some (stamp, offset) ∧ stamp.Valid ∧
      stamp.instant offset = ⟨t.seconds, t.nanoseconds / 100 * 100⟩ := by
  have hspelled := Instant.stamp_spelled hfits (by omega)
  have hread : readOffset (offsetText offset).toList = some (offset, []) := by
    simpa using readOffset_offsetText hminutes hlo hhi []
  refine ⟨t.text offset, t.stamp offset, rfl, ?_, ?_, Instant.stamp_valid hfits hnano,
    Instant.stamp_instant hfits hnano⟩
  · rw [Formed, Instant.text_toList hfits]
    exact List.rel_append hspelled.fits (fits_offsetText hminutes hlo hhi)
  · rw [readTimestamp, Instant.text_toList hfits, hspelled.read]
    simp [hread]

/-- It is March in universal time, and on a clock 23:59 behind it the leap day of
the year 0 is about to end. -/
theorem instant_read_back_leap_day :
    let t : Instant := ⟨-62161948861, 999999987⟩
    let text := "0000-02-29T23:59:59.9999999-23:59"
    (t.nanoseconds < 1000000000 ∧ (60 : Int) ∣ -86340 ∧ (-86400 : Int) < -86340 ∧
        (-86340 : Int) < 86400 ∧ t.YearFits (-86340)) ∧
      ∃ stamp, Value.ofInstant t (-86340) = .text text ∧ Formed text ∧
        readTimestamp text = some (stamp, -86340) ∧ stamp.Valid ∧
        stamp.instant (-86340) = ⟨-62161948861, 999999900⟩ := by
  intro t text
  have htext : Value.ofInstant t (-86340) = .text text := by decide
  have hfits : t.YearFits (-86340) := ⟨by decide, by decide⟩
  obtain ⟨text', stamp, htext', hformed, hread, hvalid, hinstant⟩ :=
    instant_read_back (t := t) (by decide) (by decide) (by decide) (by decide) hfits
  obtain rfl : text = text' := Value.text.inj (htext.symm.trans htext')
  exact ⟨⟨by decide, by decide, by decide, by decide, hfits⟩, stamp, htext, hformed, hread, hvalid,
    hinstant.trans (by decide)⟩

end Time
end Telemetry
