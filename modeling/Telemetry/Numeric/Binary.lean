/-
# Binary interchange numbers, exactly

A format has `exponentBits` exponent bits over `fractionBits` fraction bits.
Without its sign a number is a *code*, the bit pattern read as a natural
number, and the codes are in the order of the magnitudes they stand for: `0`
is zero, `top` is infinity.  Every finite magnitude is a whole number of
*units*, the unit being the least positive magnitude `2 ^ -scale`, so that the
arithmetic below is arithmetic of natural numbers: an operation forms the
exact result as a quotient `n / d` of units and `Format.round` goes from there
to the nearest code, a tie to the even one.  All codes that are not numbers
are one value, `nan`.
-/

namespace Telemetry
namespace Numeric

/-! ### Powers of the bases -/

/-- Two to the power `n`. -/
def twoPow (n : Nat) : Nat := Nat.pow 2 n

/-- Ten to the power `n`. -/
def tenPow (n : Nat) : Nat := Nat.pow 10 n

/-- A power of two is not zero, so it can be divided by. -/
theorem twoPow_pos (n : Nat) : 0 < twoPow n := Nat.two_pow_pos n

/-- The next power of two is twice as great. -/
theorem twoPow_succ (n : Nat) : twoPow (n + 1) = twoPow n * 2 := rfl

/-! ### Codes and what they stand for -/

/-- The quotient `n / d` as an integer, the nearest one, of two the even one. -/
def nearest (n d : Nat) : Nat :=
  let q := n / d
  let r := n % d
  if 2 * r < d then q else if d < 2 * r then q + 1 else q + q % 2

/-- A binary interchange format. -/
structure Format where
  /-- Bits of the significand after the leading one. -/
  fractionBits : Nat
  /-- Bits of the exponent field. -/
  exponentBits : Nat

namespace Format

/-- The format of 64 bits. -/
def binary64 : Format := ⟨52, 11⟩

/-- The format of 32 bits. -/
def binary32 : Format := ⟨23, 8⟩

/-- Bits of a code, the sign left out. -/
def codeBits (f : Format) : Nat := f.fractionBits + f.exponentBits

/-- The code of infinity, above the codes of all finite magnitudes. -/
def top (f : Format) : Nat := (twoPow f.exponentBits - 1) * twoPow f.fractionBits

/-- The unit, the least positive magnitude, is `2 ^ -scale`. -/
def scale (f : Format) : Nat := twoPow (f.exponentBits - 1) - 2 + f.fractionBits

/-- The magnitude of a code in units; at `top` it is the power of two that
would follow the greatest finite magnitude. -/
def units (f : Format) (code : Nat) : Nat :=
  let e := code / twoPow f.fractionBits
  let m := code % twoPow f.fractionBits
  if e = 0 then m else (twoPow f.fractionBits + m) * twoPow (e - 1)

/-- The code nearest to `n / d` units, of two the even one.  The grid there
has steps of `2 ^ s` units, and a carry out of the significand moves into the
exponent by itself. -/
def round (f : Format) (n d : Nat) : Nat :=
  let s := (n / d).log2 - f.fractionBits
  min f.top (s * twoPow f.fractionBits + nearest n (d * twoPow s))

/-- Nothing is rounded to a code above infinity. -/
theorem round_le_top (f : Format) (n d : Nat) : f.round n d ≤ f.top := Nat.min_le_left _ _

end Format

/-- A number of a binary format. -/
inductive Binary (f : Format) where
  /-- The value that is no number. -/
  | nan
  /-- A signed magnitude, zero and infinity included. -/
  | signed (negative : Bool) (code : Nat) (code_le : code ≤ f.top)
  deriving DecidableEq

/-- The numbers of 64 bits. -/
abbrev Binary64 := Binary Format.binary64

/-- The numbers of 32 bits. -/
abbrev Binary32 := Binary Format.binary32

namespace Binary

variable {f : Format}

/-- The number nearest to `n / d` units, with a sign. -/
def ofUnits (negative : Bool) (n d : Nat) : Binary f :=
  .signed negative (f.round n d) (f.round_le_top n d)

/-- A signed infinity. -/
def infinity (negative : Bool) : Binary f := .signed negative f.top (Nat.le_refl _)

/-- A signed zero. -/
def zero (negative : Bool) : Binary f := .signed negative 0 (Nat.zero_le _)

instance : Inhabited (Binary f) := ⟨zero false⟩

/-- The number nearest to the fraction `n / d`. -/
def ofFraction (n d : Nat) : Binary f := ofUnits false (n * twoPow f.scale) d

/-- The number nearest to a natural number. -/
def ofNat (n : Nat) : Binary f := ofFraction n 1

/-- The number with the given bits. -/
def ofBits (bits : Nat) : Binary f :=
  let code := bits % twoPow f.codeBits
  if h : code ≤ f.top then .signed (bits / twoPow f.codeBits % 2 == 1) code h else .nan

/-- The bits of a number; those of `nan` are the quiet ones without a sign. -/
def toBits : Binary f → Nat
  | nan => f.top + twoPow (f.fractionBits - 1)
  | signed s c _ => (if s then twoPow f.codeBits else 0) + c

/-- Neither an infinity nor `nan`. -/
def isFinite : Binary f → Bool
  | nan => false
  | signed _ c _ => c < f.top

/-- One of the two infinities. -/
def isInfinite : Binary f → Bool
  | nan => false
  | signed _ c _ => c == f.top

/-- The place of a number in the order, in units; `nan` has none, and both
zeros have the same. -/
def rank : Binary f → Option Int
  | nan => none
  | signed s c _ => some (if s then -(f.units c : Int) else f.units c)

/-- Numeric `≤`, false as soon as `nan` takes part. -/
def le (x y : Binary f) : Bool :=
  match x.rank, y.rank with
  | some a, some b => a ≤ b
  | _, _ => false

/-- Numeric equality: the zeros are equal, `nan` differs from itself. -/
def equals (x y : Binary f) : Bool :=
  match x.rank, y.rank with
  | some a, some b => a == b
  | _, _ => false

/-- The number itself if it is at least `floor`, else `floor`; `nan` counts as
too small. -/
def atLeast (floor x : Binary f) : Binary f := if floor.le x then x else floor

/-- The opposite number. -/
def neg : Binary f → Binary f
  | nan => nan
  | signed s c h => signed (!s) c h

/-- The rounded product; infinity times zero is `nan`. -/
def mul : Binary f → Binary f → Binary f
  | signed s a _, signed t b _ =>
    if a = f.top ∨ b = f.top then
      if a = 0 ∨ b = 0 then nan else infinity (s != t)
    else ofUnits (s != t) (f.units a * f.units b) (twoPow f.scale)
  | _, _ => nan

/-- The rounded quotient; infinity by infinity and zero by zero are `nan`. -/
def div : Binary f → Binary f → Binary f
  | signed s a _, signed t b _ =>
    if a = f.top then
      if b = f.top then nan else infinity (s != t)
    else if b = f.top then zero (s != t)
    else if b = 0 then
      if a = 0 then nan else infinity (s != t)
    else ofUnits (s != t) (f.units a * twoPow f.scale) (f.units b)
  | _, _ => nan

/-- The rounded sum; opposite infinities give `nan`, and a sum that vanishes
is the positive zero unless both terms were negative. -/
def add : Binary f → Binary f → Binary f
  | signed s a ha, signed t b hb =>
    if a = f.top then
      if b = f.top ∧ s ≠ t then nan else signed s a ha
    else if b = f.top then signed t b hb
    else if s = t then ofUnits s (f.units a + f.units b) 1
    else if f.units a = f.units b then zero false
    else if f.units b < f.units a then ofUnits s (f.units a - f.units b) 1
    else ofUnits t (f.units b - f.units a) 1
  | _, _ => nan

/-- `r` times the `n`-th power of `x` by repeated squaring, least bit first,
each product rounded. -/
def mulPow (r x : Binary f) (n : Nat) : Binary f :=
  let r' := if n % 2 = 1 then r.mul x else r
  if n / 2 = 0 then r' else mulPow r' (x.mul x) (n / 2)
termination_by n
decreasing_by omega

/-- The `n`-th power by repeated squaring. -/
def pow (x : Binary f) (n : Nat) : Binary f := mulPow (ofNat 1) x n

/-- The number in another format, rounded where it has to be. -/
def convert {g : Format} : Binary f → Binary g
  | nan => nan
  | signed s c _ =>
    if c = f.top then infinity s else ofUnits s (f.units c * twoPow g.scale) (twoPow f.scale)

/-- The whole part as a natural number of at most `limit`; negative numbers
and `nan` give zero. -/
def truncate (limit : Nat) : Binary f → Nat
  | signed false c _ => if c = f.top then limit else min limit (f.units c / twoPow f.scale)
  | _ => 0

end Binary
end Numeric
end Telemetry
