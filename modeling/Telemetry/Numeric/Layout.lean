/-
# How a number is written

A layout fixes what the value leaves open: which of two equally near decimals
is written, which magnitudes are written without an exponent, whether a whole
number keeps a zero behind its point, and whether a positive exponent carries
a sign.
-/

import Telemetry.Numeric.Shortest

namespace Telemetry
namespace Numeric

/-- The choices of one written form of numbers. -/
structure Layout where
  /-- The least and greatest point positions written without an exponent;
  without bounds there is never an exponent. -/
  positional : Option (Int × Int)
  /-- A whole number ends in `.0`. -/
  pointZero : Bool
  /-- A positive exponent carries a plus sign. -/
  plus : Bool
  /-- Which of two equally near decimals is written. -/
  tie : Tie

namespace Layout

/-- JSON numbers of 64 bits. -/
def json64 : Layout := ⟨some (-4, 16), true, true, .toEven⟩

/-- JSON numbers of 32 bits. -/
def json32 : Layout := ⟨some (-5, 13), true, true, .toEven⟩

/-- Plain text: always positional, whole numbers without a point. -/
def plain : Layout := ⟨none, false, false, .up⟩

/-- Text for inspection. -/
def inspect : Layout := ⟨some (-3, 16), true, false, .up⟩

/-- Whether a decimal with this point position has no exponent. -/
def isPositional (l : Layout) (p : Int) : Bool :=
  match l.positional with
  | none => true
  | some (low, high) => low ≤ p && p ≤ high

/-- A run of zeros. -/
def zeros (n : Nat) : String := String.ofList (List.replicate n '0')

/-- Digits with the point behind the first `p` of them. -/
def positionalText (l : Layout) (digits : List Char) (p : Int) : String :=
  if p ≤ 0 then "0." ++ zeros (-p).toNat ++ String.ofList digits
  else if digits.length ≤ p then
    String.ofList digits ++ zeros (p.toNat - digits.length) ++ (if l.pointZero then ".0" else "")
  else String.ofList (digits.take p.toNat) ++ "." ++ String.ofList (digits.drop p.toNat)

/-- One digit, the rest behind a point, and the power of ten. -/
def exponentText (l : Layout) (digits : List Char) (p : Int) : String :=
  let rest := digits.drop 1
  let fraction := if rest.isEmpty then "" else "." ++ String.ofList rest
  String.ofList (digits.take 1) ++ fraction ++ "e" ++ (if l.plus && 1 ≤ p then "+" else "") ++
    toString (p - 1)

/-- The text of a decimal; zero is written as a whole number of one digit. -/
def decimalText (l : Layout) (d : Decimal) : String :=
  let digits := (toString d.digits).toList
  let p := if d.digits = 0 then 1 else d.pointPosition
  if l.isPositional p then l.positionalText digits p else l.exponentText digits p

/-- The text of a number. -/
def text {f : Format} (l : Layout) : Binary f → String
  | .nan => "NaN"
  | .signed s c _ =>
    (if s then "-" else "") ++ (if c = f.top then "inf" else l.decimalText (f.shortest l.tie c))

end Layout
end Numeric
end Telemetry
