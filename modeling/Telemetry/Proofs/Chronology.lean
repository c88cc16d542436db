/-
# Timestamps sort by time

At one offset the texts of instants are in the order of time.  The numbers in
them have fixed widths, so texts are compared number by number
(`Stamp.chars_le_iff`).  The numbers are in the order of time because the days go
through the dates in order, and the seconds of a day through hours, minutes and
seconds (`stamp_fields_lt`).  Only the last second of a minute can be followed by
a leap second, and the next second is one of the next minute.

A text shows less than there is: all nanoseconds of one tick look alike, and so
does all of a leap second, whose ticks are cut off at the greatest number.  Apart
from that a later instant has a greater text (`text_lt`).
-/

import Telemetry.Proofs.Timestamps

namespace Telemetry
namespace Time

open Text

/-! ### Comparing texts -/

namespace Stamp

variable {a b : Stamp}

/-- The numbers from the left to the right. -/
def fields (s : Stamp) : List Nat :=
  [s.year, s.month, s.day, s.hour, s.minute, s.second, s.tick]

/-- **The first number that differs decides.** -/
theorem Spelled.chars_le_iff (ha : a.Spelled) (hb : b.Spelled) (rest : List Char) :
    a.chars ++ rest ≤ b.chars ++ rest ↔ a.fields ≤ b.fields := by
  simp only [chars, fields, List.append_assoc, List.cons_append, cons_le_cons_iff,
    ha.year.append_le_append_iff hb.year, ha.month.append_le_append_iff hb.month,
    ha.day.append_le_append_iff hb.day, ha.hour.append_le_append_iff hb.hour,
    ha.minute.append_le_append_iff hb.minute, ha.second.append_le_append_iff hb.second,
    ha.tick.append_le_append_iff hb.tick, lt_irrefl, le_refl, false_or, true_and]

end Stamp

/-! ### The order of time -/

namespace Instant

/-- Time goes by in seconds and nanoseconds; a leap second is a part of the
second before it. -/
instance : LE Instant :=
  ⟨fun t u => t.seconds < u.seconds ∨ t.seconds = u.seconds ∧ t.nanoseconds ≤ u.nanoseconds⟩

/-- A leap second follows the last second of a minute, and is no longer than
other ones. -/
structure Sound (t : Instant) : Prop where
  nanoseconds_lt : t.nanoseconds < 2000000000
  leap : 1000000000 ≤ t.nanoseconds → t.seconds % 60 = 59

/-- What a text tells of an instant: whole ticks, and of a leap second only that
it has begun. -/
def told (t : Instant) : Instant := ⟨t.seconds, min (t.nanoseconds / 100) 10000000 * 100⟩

/-- One instant is before another one, and a text tells it. -/
def Before (t u : Instant) : Prop :=
  t.seconds < u.seconds ∨ t.seconds = u.seconds ∧ t.told.nanoseconds < u.told.nanoseconds

variable {t u : Instant} {offset : Int}

/-- Of two instants in order, the earlier one is before the other also in what texts tell,
or the texts tell the same. -/
theorem before_or_told_eq (h : t ≤ u) : t.Before u ∨ t.told = u.told := by
  have hle : t.seconds < u.seconds ∨ t.seconds = u.seconds ∧ t.nanoseconds ≤ u.nanoseconds := h
  simp only [Before, told, mk.injEq]
  omega

/-- Instants of which a text tells the same have the same numbers. -/
theorem stamp_eq (ht : t.Sound) (hu : u.Sound) (h : t.told = u.told) (offset : Int) :
    t.stamp offset = u.stamp offset := by
  have htnano := ht.nanoseconds_lt
  have hunano := hu.nanoseconds_lt
  simp only [told, mk.injEq] at h
  obtain ⟨hseconds, hticks⟩ := h
  simp only [stamp, reading_eq, clockDay, clockSecond, ticks, hseconds, Stamp.mk.injEq, true_and]
  omega

/-- A leap second shows as the last second of a minute on every clock that is off by whole
minutes. -/
theorem clockSecond_leap (ht : t.Sound) (hminutes : 60 ∣ offset)
    (hleap : 1000000000 ≤ t.nanoseconds) : t.clockSecond offset % 60 = 59 := by
  have hsum := seconds_eq t offset
  have hlast := ht.leap hleap
  omega

/-- A later day has a later date. -/
theorem fields_lt_of_clockDay_lt (hts : t.YearFits offset) (hus : u.YearFits offset)
    (h : t.clockDay offset < u.clockDay offset) :
    (t.stamp offset).fields < (u.stamp offset).fields := by
  have htyear := hts.year_nonneg
  have huyear := hus.year_nonneg
  simp only [reading_eq] at htyear huyear
  simp only [Stamp.fields, stamp, reading_eq, List.cons_lt_cons_iff]
  rcases ofDays_before h with hyear | ⟨hyear, hmonth | ⟨hmonth, hday⟩⟩
  · exact .inl (by omega)
  · exact .inr ⟨by omega, .inl hmonth⟩
  · exact .inr ⟨by omega, .inr ⟨hmonth, .inl hday⟩⟩

/-- On one day the time of day decides: the second that is shown is sixty only at
the end of a minute, and then the next second is of the next one. -/
theorem fields_lt_of_clockDay_eq (ht : t.Sound) (hu : u.Sound) (hminutes : 60 ∣ offset)
    (hday : t.clockDay offset = u.clockDay offset)
    (h : t.clockSecond offset < u.clockSecond offset ∨
      t.clockSecond offset = u.clockSecond offset ∧ t.told.nanoseconds < u.told.nanoseconds) :
    (t.stamp offset).fields < (u.stamp offset).fields := by
  have htnano := ht.nanoseconds_lt
  have hunano := hu.nanoseconds_lt
  have htleap := clockSecond_leap ht hminutes
  simp only [Stamp.fields, stamp, reading_eq, List.cons_lt_cons_iff, lt_irrefl, and_false,
    or_false, false_or, true_and, ticks, hday]
  rcases h with hlater | ⟨hsame, hticks⟩
  · omega
  · simp only [told] at hticks
    omega

/-- **Of two instants at one offset the later one has the later numbers.** -/
theorem stamp_fields_lt (ht : t.Sound) (hu : u.Sound) (hminutes : 60 ∣ offset)
    (hts : t.YearFits offset) (hus : u.YearFits offset) (h : t.Before u) :
    (t.stamp offset).fields < (u.stamp offset).fields := by
  have htsum := seconds_eq t offset
  have husum := seconds_eq u offset
  have htlt := clockSecond_lt t offset
  have hult := clockSecond_lt u offset
  unfold Before at h
  have hle : t.clockDay offset ≤ u.clockDay offset := by omega
  rcases hle.lt_or_eq with hlt | heq
  · exact fields_lt_of_clockDay_lt hts hus hlt
  · exact fields_lt_of_clockDay_eq ht hu hminutes heq (by omega)

/-- Texts of one length are in the order of their numbers from the left. -/
theorem text_le_text_iff (ht : t.Sound) (hu : u.Sound) (hts : t.YearFits offset)
    (hus : u.YearFits offset) :
    t.text offset ≤ u.text offset ↔ (t.stamp offset).fields ≤ (u.stamp offset).fields := by
  rw [String.le_iff_toList_le, text_toList hts, text_toList hus]
  exact (stamp_spelled hts ht.nanoseconds_lt).chars_le_iff (stamp_spelled hus hu.nanoseconds_lt) _

/-- **A later instant has a greater text.** -/
theorem text_lt (ht : t.Sound) (hu : u.Sound) (hminutes : 60 ∣ offset)
    (hts : t.YearFits offset) (hus : u.YearFits offset) (h : t.Before u) :
    t.text offset < u.text offset := by
  rw [← not_le, text_le_text_iff hu ht hus hts, not_le]
  exact stamp_fields_lt ht hu hminutes hts hus h

end Instant

/-- **Timestamps at one offset sort by time**, those in leap seconds among them:
an instant that is not later than another one has a text that is not greater, and
the same text only if texts tell the same of both. -/
theorem texts_sorted {t u : Instant} {offset : Int} (ht : t.Sound) (hu : u.Sound)
    (hminutes : 60 ∣ offset) (hts : t.YearFits offset) (hus : u.YearFits offset) (h : t ≤ u) :
    ∃ a b, Value.ofInstant t offset = .text a ∧ Value.ofInstant u offset = .text b ∧
      a ≤ b ∧ (a = b → t.told = u.told) := by
  refine ⟨t.text offset, u.text offset, rfl, rfl, ?_⟩
  rcases Instant.before_or_told_eq h with hbefore | htold
  · have hlt := Instant.text_lt ht hu hminutes hts hus hbefore
    exact ⟨hlt.le, fun heq => absurd heq hlt.ne⟩
  · refine ⟨?_, fun _ => htold⟩
    rw [Instant.text_le_text_iff ht hu hts hus, Instant.stamp_eq ht hu htold offset]

/-- The leap second at the end of 2016 is before the first second of 2017. -/
theorem texts_sorted_leap_second :
    let t : Instant := ⟨1483228799, 1500000000⟩
    let u : Instant := ⟨1483228800, 0⟩
    (t.Sound ∧ u.Sound ∧ (60 : Int) ∣ 0 ∧ t.YearFits 0 ∧ u.YearFits 0 ∧ t ≤ u) ∧
      Value.ofInstant t 0 = .text "2016-12-31T23:59:60.9999999+00:00" ∧
      Value.ofInstant u 0 = .text "2017-01-01T00:00:00.0000000+00:00" ∧
      "2016-12-31T23:59:60.9999999+00:00" ≤ "2017-01-01T00:00:00.0000000+00:00" := by
  intro t u
  have ht : t.Sound := ⟨by decide, by decide⟩
  have hu : u.Sound := ⟨by decide, by decide⟩
  have hts : t.YearFits 0 := ⟨by decide, by decide⟩
  have hus : u.YearFits 0 := ⟨by decide, by decide⟩
  have hle : t ≤ u := .inl (by decide)
  have htext : Value.ofInstant t 0 = .text "2016-12-31T23:59:60.9999999+00:00" := by decide
  have hutext : Value.ofInstant u 0 = .text "2017-01-01T00:00:00.0000000+00:00" := by decide
  obtain ⟨a, b, ha, hb, hab, -⟩ := texts_sorted ht hu (by decide) hts hus hle
  rw [htext] at ha
  rw [hutext] at hb
  cases ha
  cases hb
  exact ⟨⟨ht, hu, by decide, hts, hus, hle⟩, htext, hutext, hab⟩

end Time
end Telemetry
