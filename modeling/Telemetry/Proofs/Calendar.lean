/-
# The Gregorian calendar

A year has 366 days if its number is divisible by four, but not by a hundred
unless by four hundred, and 365 days otherwise; the rule is taken back to all
years before its time.  Counted by this rule, month after month and year after
year (`CivilDate.days`), the date that was reckoned from a number of days is that
many days after 1970-01-01 (`days_ofDays`), and a date of the calendar
(`ofDays_valid`).  Of two dates the later one has the greater number of days
(`CivilDate.days_lt`), so the days go through the dates in order
(`ofDays_before`).

The reckoning starts years in March, so that a leap day is the last day of its
year, and works within 400 years, which are 146097 days.  What it rests on are
two facts about remainders: which year a day of the 400 years is in
(`yearOfEra_spec`), and that from March on five months have 153 days
(`daysInMonth_march`).
-/

import Telemetry.Time.Timestamp
import Mathlib.Tactic.IntervalCases

namespace Telemetry
namespace Time

/-! ### Years and months -/

/-- Whether a year has a leap day. -/
def IsLeap (year : Int) : Prop := year % 4 = 0 ∧ (year % 100 ≠ 0 ∨ year % 400 = 0)

instance (year : Int) : Decidable (IsLeap year) :=
  inferInstanceAs (Decidable (year % 4 = 0 ∧ (year % 100 ≠ 0 ∨ year % 400 = 0)))

/-- The number of leap days of a year. -/
def leapDays (year : Int) : Nat := if IsLeap year then 1 else 0

/-- How many days a month has. -/
def daysInMonth (year : Int) (month : Nat) : Nat :=
  if month = 2 then 28 + leapDays year
  else if month = 4 ∨ month = 6 ∨ month = 9 ∨ month = 11 then 30 else 31

/-- How many days of a year are before a month of it. -/
def daysBefore (year : Int) : (month : Nat) → Nat
  | 0 | 1 => 0
  | m + 2 => daysBefore year (m + 1) + daysInMonth year (m + 1)

/-- How many days a year has. -/
def daysInYear (year : Int) : Nat := daysBefore year 13

/-- The first day of a year, counted from 1970-01-01. -/
def firstDay (year : Int) : Int :=
  365 * (year - 1) + (year - 1) / 4 - (year - 1) / 100 + (year - 1) / 400 - 719162

/-- A year has at most one leap day. -/
theorem leapDays_le (year : Int) : leapDays year ≤ 1 := by
  unfold leapDays
  split_ifs <;> decide

/-- A month has at most 31 days. -/
theorem daysInMonth_le (year : Int) (month : Nat) : daysInMonth year month ≤ 31 := by
  have hleap := leapDays_le year
  unfold daysInMonth
  split_ifs <;> omega

/-- A year has 365 days and its leap day. -/
theorem daysInYear_eq (year : Int) : daysInYear year = 365 + leapDays year := by
  simp [daysInYear, daysBefore, daysInMonth]
  omega

/-- A year is as long as it has days. -/
theorem firstDay_succ (year : Int) : firstDay (year + 1) = firstDay year + daysInYear year := by
  rw [daysInYear_eq]
  unfold firstDay leapDays
  split_ifs with h <;> unfold IsLeap at h <;> push_cast <;> omega

/-! ### Dates -/

namespace CivilDate

/-- A date of the calendar. -/
structure Valid (d : CivilDate) : Prop where
  one_le_month : 1 ≤ d.month
  month_le : d.month ≤ 12
  one_le_day : 1 ≤ d.day
  day_le : d.day ≤ daysInMonth d.year d.month

/-- How many days after 1970-01-01 a date is. -/
def days (d : CivilDate) : Int := firstDay d.year + daysBefore d.year d.month + d.day - 1

end CivilDate

/-! ### From days to dates -/

/-- The year of a day of 400 years that start with 1 March. -/
def yearOfEra (day : Nat) : Nat := (day - day / 1460 + day / 36524 - day / 146096) / 365

/-- The date of a day of a year that starts with 1 March. -/
def ofMarch (year : Int) (day : Nat) : CivilDate :=
  let m := (5 * day + 2) / 153
  let month := if m < 10 then m + 3 else m - 9
  ⟨year + (if month ≤ 2 then 1 else 0), month, day - (153 * m + 2) / 5 + 1⟩

/-- A day of 400 years is in its year, and only leap years have a day number 365. -/
theorem yearOfEra_spec {day : Nat} (h : day < 146097) :
    let y := yearOfEra day
    y < 400 ∧ 365 * y + y / 4 ≤ day + y / 100 ∧ day + y / 100 ≤ 365 * y + y / 4 + 365 ∧
      (day + y / 100 = 365 * y + y / 4 + 365 → IsLeap (y + 1)) := by
  intro y
  by_cases hend : day = 146096
  · -- the last day of all is a leap day, too
    subst hend
    decide
  set century := day / 36524 with hcentury
  set quad := day / 1460 with hquad
  have hyear : y = (day - quad + century) / 365 := by
    have hlast : day / 146096 = 0 := by omega
    show yearOfEra day = _
    rw [yearOfEra, hlast, Nat.sub_zero]
  have hsame : y / 100 = century := by
    have hle : century ≤ 3 := by omega
    have hfirst : 36500 * century ≤ day - quad + century := by omega
    have hlast : day - quad + century < 36500 * century + 36500 := by omega
    omega
  have hbelow : y / 4 ≤ quad := by omega
  have habove : quad ≤ y / 4 + 1 := by omega
  refine ⟨by omega, by omega, by omega, fun hleap => ?_⟩
  have hnext : quad = y / 4 + 1 := by omega
  have hfour : y % 4 = 3 := by omega
  have hhundred : y % 100 ≠ 99 := by omega
  exact ⟨by omega, .inl (by omega)⟩

/-- From March to December five months have 153 days, in the same order again and
again. -/
theorem daysInMonth_march {m : Nat} (h : m < 10) (year : Int) :
    (153 * m + 2) / 5 + daysInMonth year (m + 3) = (153 * (m + 1) + 2) / 5 := by
  interval_cases m <;> rfl

/-- From March on, the days before a month follow a straight line that the lengths of the
months, 31 and 30 in turn, come from by rounding. -/
theorem daysBefore_march {m : Nat} (h : m < 10) (year : Int) :
    daysBefore year (m + 3) = 59 + leapDays year + (153 * m + 2) / 5 := by
  induction m with
  | zero =>
    show 0 + 31 + (28 + leapDays year) = _
    omega
  | succ m ih =>
    have hmonth := daysInMonth_march (Nat.lt_of_succ_lt h) year
    show daysBefore year (m + 3) + daysInMonth year (m + 3) = _
    rw [ih (Nat.lt_of_succ_lt h)]
    omega

/-- A day from the first one of a month on that the month is long enough for. -/
theorem CivilDate.of_start (year : Int) (month start day : Nat) (hone : 1 ≤ month)
    (htwelve : month ≤ 12) (hstart : start ≤ day) (hend : day < start + daysInMonth year month) :
    (⟨year, month, day - start + 1⟩ : CivilDate).Valid ∧
      (⟨year, month, day - start + 1⟩ : CivilDate).days =
        firstDay year + daysBefore year month + day - start := by
  refine ⟨⟨hone, htwelve, Nat.le_add_left _ _, ?_⟩, ?_⟩ <;> dsimp only [days] <;> omega

/-- The date is one of the calendar, and its day the one it was reckoned from:
306 days of the year are over when the next year begins with January. -/
theorem ofMarch_spec {year : Int} {day : Nat} (h : day ≤ 365)
    (hleap : day = 365 → IsLeap (year + 1)) :
    (ofMarch year day).Valid ∧ (ofMarch year day).days = firstDay (year + 1) - 306 + day := by
  have hyear := firstDay_succ year
  rw [daysInYear_eq] at hyear
  -- `m` counts months from March; up to December the straight line holds, the last two
  -- months belong to the next year
  set m := (5 * day + 2) / 153 with hm
  obtain hmarch | hjanuary | hfebruary : m < 10 ∨ m = 10 ∨ m = 11 := by omega
  · have hdate : ofMarch year day = ⟨year, m + 3, day - (153 * m + 2) / 5 + 1⟩ := by
      simp only [ofMarch, ← hm, if_pos hmarch, if_neg (show ¬m + 3 ≤ 2 by omega), Int.add_zero]
    have hlength := daysInMonth_march hmarch year
    have hbefore := daysBefore_march hmarch year
    obtain ⟨hvalid, hdays⟩ := CivilDate.of_start year (m + 3) ((153 * m + 2) / 5) day
      (by omega) (by omega) (by omega) (by omega)
    rw [hdate]
    exact ⟨hvalid, hdays.trans (by omega)⟩
  · have hdate : ofMarch year day = ⟨year + 1, 1, day - 306 + 1⟩ := by
      simp only [ofMarch, ← hm, hjanuary]
      rfl
    have hlength : daysInMonth (year + 1) 1 = 31 := rfl
    have hbefore : daysBefore (year + 1) 1 = 0 := rfl
    obtain ⟨hvalid, hdays⟩ := CivilDate.of_start (year + 1) 1 306 day
      (by omega) (by omega) (by omega) (by omega)
    rw [hdate]
    exact ⟨hvalid, hdays.trans (by omega)⟩
  · have hdate : ofMarch year day = ⟨year + 1, 2, day - 337 + 1⟩ := by
      simp only [ofMarch, ← hm, hfebruary]
      rfl
    have hlength : daysInMonth (year + 1) 2 = 28 + leapDays (year + 1) := rfl
    have hbefore : daysBefore (year + 1) 2 = 31 := rfl
    have hlast : day = 365 → leapDays (year + 1) = 1 := fun hlast => if_pos (hleap hlast)
    obtain ⟨hvalid, hdays⟩ := CivilDate.of_start (year + 1) 2 337 day
      (by omega) (by omega) (by omega) (by omega)
    rw [hdate]
    exact ⟨hvalid, hdays.trans (by omega)⟩

/-- The year from March on, and the day of it, from which a date is reckoned. -/
theorem exists_ofMarch (days : Int) : ∃ (year : Int) (day : Nat), day ≤ 365 ∧
    (day = 365 → IsLeap (year + 1)) ∧ firstDay (year + 1) - 306 + day = days ∧
    CivilDate.ofDays days = ofMarch year day := by
  set era := Int.fdiv (days + 719468) 146097 with hera
  set day := (days + 719468 - era * 146097).toNat with hday
  have hfloor : era = (days + 719468) / 146097 := Int.fdiv_eq_ediv_of_nonneg _ (by decide)
  have hsplit : (day : Int) = days + 719468 - era * 146097 := by omega
  have hera_day : day < 146097 := by omega
  obtain ⟨hyear, hfirst, hlast, hleap⟩ := yearOfEra_spec hera_day
  set y := yearOfEra day with hy
  refine ⟨y + era * 400, day - (365 * y + y / 4 - y / 100), by omega, fun hend => ?_, ?_, rfl⟩
  · have hyleap := hleap (by omega)
    unfold IsLeap at *
    omega
  · have hquad : (y + era * 400 + 1 - 1) / 4 = y / 4 + era * 100 := by omega
    have hcentury : (y + era * 400 + 1 - 1) / 100 = y / 100 + era * 4 := by omega
    have hera : (y + era * 400 + 1 - 1) / 400 = era := by omega
    rw [firstDay, hquad, hcentury, hera]
    omega

/-- **What is reckoned from a number of days is a date of the calendar.** -/
theorem ofDays_valid (days : Int) : (CivilDate.ofDays days).Valid := by
  obtain ⟨year, day, hday, hleap, -, hdate⟩ := exists_ofMarch days
  rw [hdate]
  exact (ofMarch_spec hday hleap).1

/-- **It is the date of that day.** -/
theorem days_ofDays (days : Int) : (CivilDate.ofDays days).days = days := by
  obtain ⟨year, day, hday, hleap, hdays, hdate⟩ := exists_ofMarch days
  rw [hdate, (ofMarch_spec hday hleap).2, hdays]

/-- The leap day of a year that is divisible by four hundred, and the day after
the last day of February in one that is divisible by a hundred alone. -/
example : CivilDate.ofDays 11016 = ⟨2000, 2, 29⟩ ∧ CivilDate.ofDays (-25508) = ⟨1900, 3, 1⟩ := by
  decide

/-! ### The order of dates -/

namespace CivilDate

/-- One date is before another one, read from the year on. -/
def Before (a b : CivilDate) : Prop :=
  a.year < b.year ∨ a.year = b.year ∧ (a.month < b.month ∨ a.month = b.month ∧ a.day < b.day)

variable {a b : CivilDate}

/-- Two dates come one before the other or are equal. -/
theorem before_trichotomy (a b : CivilDate) : a.Before b ∨ a = b ∨ b.Before a := by
  obtain ⟨year, month, day⟩ := a
  obtain ⟨year', month', day'⟩ := b
  simp only [Before, mk.injEq]
  omega

/-- A month is over before a later one begins. -/
theorem daysBefore_add_le (year : Int) {m n : Nat} (hm : 1 ≤ m) (h : m < n) :
    daysBefore year m + daysInMonth year m ≤ daysBefore year n := by
  induction n with
  | zero => exact absurd h (Nat.not_lt_zero m)
  | succ n ih =>
    obtain ⟨k, rfl⟩ : ∃ k, n = k + 1 := ⟨n - 1, by omega⟩
    rw [daysBefore]
    rcases Nat.lt_succ_iff_lt_or_eq.1 h with hlt | rfl
    · exact (ih hlt).trans (Nat.le_add_right _ _)
    · exact le_rfl

/-- Later years begin later. -/
theorem firstDay_mono {y z : Int} (h : y ≤ z) : firstDay y ≤ firstDay z := by
  unfold firstDay
  omega

/-- A date is in its year. -/
theorem Valid.days_lt (h : a.Valid) :
    firstDay a.year ≤ a.days ∧ a.days < firstDay (a.year + 1) := by
  have hmonth : daysBefore a.year a.month + daysInMonth a.year a.month ≤ daysBefore a.year 13 :=
    daysBefore_add_le a.year h.one_le_month (Nat.lt_succ_of_le h.month_le)
  have hbefore := h.one_le_day
  have hday := h.day_le
  rw [firstDay_succ, daysInYear]
  unfold days
  omega

/-- **Days go by as dates do.** -/
theorem days_lt (ha : a.Valid) (hb : b.Valid) (h : a.Before b) : a.days < b.days := by
  rcases h with hyear | ⟨hyear, hmonth | ⟨hmonth, hday⟩⟩
  · calc a.days < firstDay (a.year + 1) := ha.days_lt.2
      _ ≤ firstDay b.year := firstDay_mono hyear
      _ ≤ b.days := hb.days_lt.1
  · have hover := daysBefore_add_le a.year ha.one_le_month hmonth
    have hin := ha.day_le
    have hone := hb.one_le_day
    unfold days
    rw [← hyear]
    omega
  · unfold days
    rw [← hyear, ← hmonth]
    omega

end CivilDate

/-- **The days go through the dates in order.** -/
theorem ofDays_before {m n : Int} (h : m < n) :
    (CivilDate.ofDays m).Before (CivilDate.ofDays n) := by
  have hm := days_ofDays m
  have hn := days_ofDays n
  rcases CivilDate.before_trichotomy (CivilDate.ofDays m) (CivilDate.ofDays n) with hlt | heq | hgt
  · exact hlt
  · rw [heq] at hm
    omega
  · have hlt := CivilDate.days_lt (ofDays_valid n) (ofDays_valid m) hgt
    omega

end Time
end Telemetry
