/-
# The shortest decimal that reads back

A decimal reads back as a code if it lies between the two midpoints to the
neighbouring codes; the midpoints themselves read back as the even code.
`shortest` looks for such a decimal with one digit, with two, and so on, and
among those of one length the floor and the ceiling of the exact value are
enough to look at: if any decimal of that length reads back, so does one of
the two.  Of two hits the nearer one is taken; where they are equally near, a tie
rule decides.
-/

import Telemetry.Numeric.Binary

namespace Telemetry
namespace Numeric

/-- Which of two equally near decimals is taken. -/
inductive Tie where
  | toEven
  | up
  deriving DecidableEq, Inhabited

/-- The decimal `digits * 10 ^ exponent`. -/
structure Decimal where
  digits : Nat
  exponent : Int
  deriving DecidableEq, Inhabited

/-- The number of decimal digits, none for zero. -/
def digitCount (n : Nat) : Nat := if n = 0 then 0 else digitCount (n / 10) + 1
termination_by n
decreasing_by omega

namespace Decimal

/-- How many digits stand before the decimal point: the value lies in
`[10 ^ (p - 1), 10 ^ p)`. -/
def pointPosition (d : Decimal) : Int := d.exponent + digitCount d.digits

/-- The same decimal without zeros at the end of its digits. -/
def normal (digits : Nat) (exponent : Int) : Decimal :=
  if digits ≠ 0 ∧ digits % 10 = 0 then normal (digits / 10) (exponent + 1) else ⟨digits, exponent⟩
termination_by digits
decreasing_by omega

end Decimal

namespace Format

/-- The decimals that read back as a code, in half units: a pair of bounds. -/
def midpoints (f : Format) (code : Nat) : Nat × Nat :=
  (f.units (code - 1) + f.units code, f.units code + f.units (code + 1))

/-- The integer nearest to `k + r / d`, with `r` below `d`. -/
def nearer (tie : Tie) (k r d : Nat) : Nat :=
  if 2 * r < d then k
  else if d < 2 * r then k + 1
  else match tie with
    | .toEven => k + k % 2
    | .up => k + 1

/-- A multiple `k` of `10 ^ e` that reads back as `code`, the nearer one of
the two around the exact value, if one of them does. -/
def onGrid? (f : Format) (tie : Tie) (code : Nat) (e : Int) : Option Nat :=
  let a := tenPow (-e).toNat
  let b := twoPow (f.scale + 1) * tenPow e.toNat
  let (low, high) := f.midpoints code
  let readsBack (k : Nat) : Bool :=
    if code % 2 = 0 then low * a ≤ k * b && k * b ≤ high * a
    else low * a < k * b && k * b < high * a
  let exact := 2 * f.units code * a
  let k := exact / b
  let near := nearer tie k (exact % b) b
  let far := if near = k then k + 1 else k
  if readsBack near then some near else if readsBack far then some far else none

/-- How many digits the exact value of a code has before the decimal point. -/
def pointPosition (f : Format) (code : Nat) : Int :=
  digitCount (f.units code * tenPow f.scale / twoPow f.scale) - f.scale

/-- The first hit among the grids of `n`, `n + 1`, ... digits, `fuel` grids in
all; past them the value is cut off. -/
def shortestFrom (f : Format) (tie : Tie) (code : Nat) (p : Int) (n : Nat) : Nat → Decimal
  | 0 => ⟨0, 0⟩
  | fuel + 1 =>
    match f.onGrid? tie code (p - n) with
    | some k => .normal k (p - n)
    | none => shortestFrom f tie code p (n + 1) fuel

/-- The shortest decimal that reads back as a finite code.  As many digits as
the significand has bits are always enough. -/
def shortest (f : Format) (tie : Tie) (code : Nat) : Decimal :=
  if code = 0 then ⟨0, 0⟩
  else f.shortestFrom tie code (f.pointPosition code) 1 (f.fractionBits + 1)

end Format
end Numeric
end Telemetry
