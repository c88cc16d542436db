/-
# What the end of a window gives up

At the end of a window a pool gives up what it stores beyond its new capacity,
but only if it stores more than the reclaim limit.  The number of items given
up is a difference of natural numbers behind a comparison of floating-point
numbers, and so it has to be shown that the comparison guards the difference:
what is not within the limit of a capacity is not below the capacity
(`Config.capacity_le`), whatever the threshold.  An infinite threshold needs an
argument of its own.  Its product with a positive capacity is infinite, and
everything is within it; its product with the capacity zero is no number, and
nothing is.

`tick_closes` says what the end of a window makes of any pool.
-/

import Telemetry.Proofs.Limits
import Mathlib.Data.List.DropRight

namespace Telemetry
namespace Numeric
namespace Binary

variable {f : Format}

/-- No number is above infinity. -/
theorem le_infinity {x : Binary f} (hx : x ≠ nan) : x.le (infinity false) = true := by
  cases x with
  | nan => exact absurd rfl hx
  | signed negative code hcode =>
    refine le_iff.2 ⟨_, _, rfl, rfl, ?_⟩
    have hunits := f.units_mono hcode
    cases negative <;> simp only [if_true, Bool.false_eq_true, if_false] <;> omega

/-- Only zero is rounded to zero. -/
theorem ofNat_ne_zero {n : Nat} (hn : 0 < n) : (ofNat n : Binary64) ≠ zero false := by
  intro hzero
  have hle : (ofNat 1 : Binary64).le (ofNat n) = true := ofNat_le hn
  rw [hzero] at hle
  exact absurd hle (by decide +kernel)

/-- A positive number times infinity is infinite. -/
theorem ofNat_mul_infinity {n : Nat} (hn : 0 < n) :
    (ofNat n : Binary64).mul (infinity false) = infinity false := by
  have hcode : Format.binary64.round (n * twoPow Format.binary64.scale) 1 ≠ 0 := by
    intro hround
    refine ofNat_ne_zero hn ?_
    simp only [ofNat, ofFraction, ofUnits, zero, hround]
  show mul (signed false _ _) (signed false _ _) = _
  rw [mul, if_pos (.inr rfl), if_neg (not_or.2 ⟨hcode, by decide +kernel⟩)]
  rfl

end Binary
end Numeric

namespace Pool

open Numeric

variable {α : Type}

/-- **What is not within the limit of a capacity is not below the capacity**,
for every threshold. -/
theorem Config.capacity_le {c : Config} {n capacity : Nat}
    (h : ¬ Binary.le (.ofNat n) (c.reclaimLimit capacity) = true) : capacity ≤ n := by
  by_contra hlt
  have hn : n < capacity := Nat.lt_of_not_le hlt
  by_cases hinfinite : c.reclaimThreshold = .infinity false
  · -- the capacity is positive, and so the limit is infinite
    have hlimit : c.reclaimLimit capacity = .infinity false := by
      rw [reclaimLimit, hinfinite, Binary.atLeast, if_pos (by decide +kernel),
        Binary.ofNat_mul_infinity (Nat.zero_lt_of_lt hn)]
    exact h (hlimit ▸ Binary.le_infinity nofun)
  · exact h (Config.le_reclaimLimit hinfinite hn.le)

/-- What the end of a window makes of a pool: the report, the items given up
and the pool afterwards. -/
structure Closes (q : Pool α) (u : Update) (given : List α) (q' : Pool α) : Prop where
  /-- What was counted is reported. -/
  window : u.window = q.window
  /-- The next window begins with nothing counted. -/
  fresh : q'.window = ⟨0, 0, 0, 0⟩
  config : q'.config = q.config
  former : u.oldCapacity = q.capacity
  smoothed : u.newCapacity = smoothedCapacity q.capacity q.window.takes
  capacity : q'.capacity = u.newCapacity
  /-- The oldest items are given up, and the others stay as they were. -/
  storage : given ++ q'.stored = q.stored
  reclaimed : u.reclaimed = given.length
  /-- Within the limit nothing is given up. -/
  within : Binary.le (.ofNat q.stored.length) (q.config.reclaimLimit u.newCapacity) = true →
    q'.stored = q.stored ∧ u.reclaimed = 0
  /-- Beyond the limit there are at least as many items as the new capacity,
  and as many stay, the newest ones. -/
  beyond : ¬ Binary.le (.ofNat q.stored.length) (q.config.reclaimLimit u.newCapacity) = true →
    u.newCapacity ≤ q.stored.length ∧ q'.stored = q.stored.rtake u.newCapacity ∧
      q'.stored.length = u.newCapacity ∧ u.reclaimed + u.newCapacity = q.stored.length

/-- There is no more in excess than is stored. -/
theorem excess_le (q : Pool α) (capacity : Nat) : q.excess capacity ≤ q.stored.length := by
  unfold excess
  split_ifs <;> omega

/-- **The end of a window is exact.**  Whatever a pool stores, whatever its
threshold, its capacity and what was counted, the window is reported and the
next one begins with zeros; within the limit of the new capacity the storage
stays as it is, and beyond it the pool keeps exactly as many of its newest
items as the new capacity says, of which it has enough. -/
theorem tick_closes (q : Pool α) : q.Closes q.tick.1 q.tick.2.1 q.tick.2.2 where
  window := rfl
  fresh := rfl
  config := rfl
  former := rfl
  smoothed := rfl
  capacity := rfl
  storage := List.take_append_drop _ _
  reclaimed := (List.length_take_of_le (q.excess_le _)).symm
  within hlimit := by
    -- within the limit nothing is in excess, so nothing is dropped
    have hexcess : q.excess (smoothedCapacity q.capacity q.window.takes) = 0 := if_pos hlimit
    refine ⟨?_, hexcess⟩
    show q.stored.drop _ = _
    rw [hexcess, List.drop_zero]
  beyond hlimit := by
    -- beyond it all but the capacity is in excess, which is no more than what is stored
    have hexcess : q.excess (smoothedCapacity q.capacity q.window.takes) =
        q.stored.length - smoothedCapacity q.capacity q.window.takes := if_neg hlimit
    have henough := Config.capacity_le hlimit
    refine ⟨henough, ?_, ?_, ?_⟩
    · show q.stored.drop _ = _
      rw [hexcess, List.rtake]
      rfl
    · show (q.stored.drop _).length = _
      rw [hexcess, List.length_drop]
      exact Nat.sub_sub_self henough
    · show q.excess _ + _ = _
      rw [hexcess]
      exact Nat.sub_add_cancel henough

/-- With an infinite threshold a pool keeps everything while its capacity is
positive, and gives up everything once it is zero. -/
example : (Pool.tick ⟨⟨4, .infinity false⟩, 2, {}, [1, 2, 3]⟩).2.2.stored = [1, 2, 3] ∧
    (Pool.tick ⟨⟨4, .infinity false⟩, 1, {}, [1, 2, 3]⟩).2.1 = [1, 2, 3] := by
  decide +kernel

/-- A threshold that is no number counts as one. -/
example : (Pool.tick ⟨⟨4, .nan⟩, 3, { takes := 1 }, [1, 2, 3]⟩).2.2.stored = [2, 3] := by
  decide +kernel

end Pool
end Telemetry
