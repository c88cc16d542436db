/-
# Reading a value from JSON

The reader goes over a text once.  It reads all of JSON, lists and objects
included, because a mistake further on counts before the fact that an object
is no attribute value.  A number without fraction and exponent is whole if it
fits into 64 bits with a sign; `-0` does not, nor does anything beyond.  Any
other number is computed from the digits that fit into 64 bits by one
multiplication with, or division by, a power of ten, so its last bit may
differ from that of the nearest number.
-/

import Telemetry.Attribute.Value

namespace Telemetry
namespace Reader

open Numeric

/-- Why a text is not an attribute value. -/
inductive ReadError where
  /-- The text is no JSON. -/
  | syntactic
  /-- The JSON is a list, an object or `null`. -/
  | data
  /-- The text ends too early. -/
  | ended
  deriving DecidableEq

/-- What one JSON value amounts to as an attribute value. -/
abbrev Content := Option Value

/-- The blanks that may stand between the parts of a text. -/
def isBlank (c : Char) : Bool := c == ' ' || c == '\n' || c == '\t' || c == '\r'

/-- The text from the first character that is no blank. -/
def skipBlanks (s : List Char) : List Char := s.dropWhile isBlank

/-- The value of a digit to base sixteen. -/
def hexValue? (c : Char) : Option Nat :=
  if '0' ≤ c && c ≤ '9' then some (c.toNat - 48)
  else if 'a' ≤ c && c ≤ 'f' then some (c.toNat - 87)
  else if 'A' ≤ c && c ≤ 'F' then some (c.toNat - 55)
  else none

/-- The bytes of a text. -/
def byteCount (s : List Char) : Nat := s.foldr (fun c n => c.utf8Size + n) 0

/-- Four digits to base sixteen; with less than four bytes left the text ends
too early, whatever they are. -/
def readHex (s : List Char) : Except ReadError (Nat × List Char) :=
  if byteCount s < 4 then .error .ended
  else match s with
    | a :: b :: c :: d :: rest =>
      match hexValue? a, hexValue? b, hexValue? c, hexValue? d with
      | some a, some b, some c, some d => .ok (((a * 16 + b) * 16 + c) * 16 + d, rest)
      | _, _, _, _ => .error .syntactic
    | _ => .error .syntactic

/-- A character by its code, one of a surrogate pair by both codes. -/
def readUnicode (s : List Char) : Except ReadError (Char × List Char) := do
  let (high, rest) ← readHex s
  if high < 0xd800 ∨ 0xdfff < high then .ok (Char.ofNat high, rest)
  else if 0xdc00 ≤ high then .error .syntactic
  else match rest with
    | [] => .error .ended
    | '\\' :: [] => .error .ended
    | '\\' :: 'u' :: rest =>
      let (low, rest) ← readHex rest
      if 0xdc00 ≤ low ∧ low ≤ 0xdfff then
        .ok (Char.ofNat (0x10000 + (high - 0xd800) * 0x400 + (low - 0xdc00)), rest)
      else .error .syntactic
    | _ => .error .syntactic

/-- The character behind a backslash. -/
def readEscape : List Char → Except ReadError (Char × List Char)
  | [] => .error .ended
  | '"' :: s => .ok ('"', s)
  | '\\' :: s => .ok ('\\', s)
  | '/' :: s => .ok ('/', s)
  | 'b' :: s => .ok ('\x08', s)
  | 'f' :: s => .ok ('\x0c', s)
  | 'n' :: s => .ok ('\n', s)
  | 'r' :: s => .ok ('\r', s)
  | 't' :: s => .ok ('\t', s)
  | 'u' :: s => readUnicode s
  | _ => .error .syntactic

/-- The rest of a text behind its opening quote; `done` holds the characters
read so far, last one first. -/
def readText (fuel : Nat) (done : List Char) (s : List Char) :
    Except ReadError (String × List Char) :=
  match fuel, s with
  | 0, _ | _, [] => .error .ended
  | fuel + 1, c :: rest =>
    if c = '"' then .ok (String.ofList done.reverse, rest)
    else if c = '\\' then do
      let (c, rest) ← readEscape rest
      readText fuel (c :: done) rest
    else if c.toNat < 0x20 then .error .syntactic
    else readText fuel (c :: done) rest

/-- The greatest significand of a number. -/
def maxSignificand : Nat := 18446744073709551615

/-- Written exponents from this on are out of range. -/
def exponentLimit : Nat := 2147483648

/-- The magnitude of the least whole number of 64 bits, one more than that of
the greatest one. -/
def wholeLimit : Nat := 9223372036854775808

/-- The powers of ten by which a number is scaled at once go up to this. -/
def maxScaling : Nat := 308

/-- `x` divided by `10 ^ k`, in steps of `10 ^ 308` as long as it is not
zero. -/
def scaleDown (x : Binary64) (k : Nat) : Binary64 :=
  if k ≤ maxScaling then x.div (.ofNat (tenPow k))
  else if x.equals (.zero false) then x
  else scaleDown (x.div (.ofNat (tenPow maxScaling))) (k - maxScaling)
termination_by k
decreasing_by simp only [maxScaling] at *; omega

/-- The number `significand * 10 ^ exponent`, which must not be too large. -/
def scaled (negative : Bool) (significand : Nat) (exponent : Int) : Except ReadError Binary64 :=
  let x : Binary64 := .ofNat significand
  let sign (x : Binary64) : Binary64 := if negative then x.neg else x
  if exponent < 0 then .ok (sign (scaleDown x exponent.natAbs))
  else if exponent ≤ maxScaling then
    let y := x.mul (.ofNat (tenPow exponent.toNat))
    if y.isInfinite then .error .syntactic else .ok (sign y)
  else if significand = 0 then .ok (sign x)
  else .error .syntactic

/-- Digits taken into a significand as long as it stays within 64 bits, and
how many were taken; the first digit that does not fit ends it. -/
def takeDigits (significand taken : Nat) : List Char → Nat × Nat × List Char
  | [] => (significand, taken, [])
  | c :: s =>
    if c.isDigit then
      let next := significand * 10 + (c.toNat - 48)
      if next ≤ maxSignificand then takeDigits next (taken + 1) s
      else (significand, taken, c :: s)
    else (significand, taken, c :: s)

/-- The exponent behind its mark. -/
def readExponent (negative : Bool) (significand : Nat) (exponent : Int) (s : List Char) :
    Except ReadError (Binary64 × List Char) :=
  let (down, s) := match s with
    | '+' :: rest => (false, rest)
    | '-' :: rest => (true, rest)
    | _ => (false, s)
  match s with
  | [] => .error .ended
  | c :: _ =>
    if c.isDigit then
      let digits := s.takeWhile Char.isDigit
      let rest := s.dropWhile Char.isDigit
      let size : Nat := digits.foldl (fun n d => n * 10 + (d.toNat - 48)) 0
      if exponentLimit ≤ size then
        if significand ≠ 0 ∧ !down then .error .syntactic else .ok (.zero negative, rest)
      else do
        let shift : Int := if down then -size else size
        let x ← scaled negative significand (exponent + shift)
        .ok (x, rest)
    else .error .syntactic

/-- What may follow the digits of a number: its exponent. -/
def readScale (negative : Bool) (significand : Nat) (exponent : Int) (s : List Char) :
    Except ReadError (Binary64 × List Char) :=
  match s with
  | 'e' :: rest | 'E' :: rest => readExponent negative significand exponent rest
  | _ => do .ok (← scaled negative significand exponent, s)

/-- The digits behind the point, at least one. -/
def readFraction (negative : Bool) (significand : Nat) (exponent : Int) (s : List Char) :
    Except ReadError (Binary64 × List Char) :=
  match s with
  | [] => .error .ended
  | c :: _ =>
    if c.isDigit then
      let (significand, taken, rest) := takeDigits significand 0 s
      readScale negative significand (exponent - taken) (rest.dropWhile Char.isDigit)
    else .error .syntactic

/-- A whole number, if it fits. -/
def wholeValue (negative : Bool) (n : Nat) : Value :=
  if negative then
    if n = 0 ∨ wholeLimit < n then .double (Binary.neg (.ofNat n)) else .int (Int64.ofInt (-n))
  else if n < wholeLimit then .int (Int64.ofNat n) else .double (.ofNat n)

/-- A number behind its sign. -/
def readNumber (negative : Bool) (s : List Char) : Except ReadError (Value × List Char) :=
  match s with
  | [] => .error .ended
  | c :: after =>
    if !c.isDigit then .error .syntactic
    else if c = '0' ∧ (after.head?.any Char.isDigit) then .error .syntactic
    else
      let (significand, _, rest) := takeDigits 0 0 s
      let dropped := (rest.takeWhile Char.isDigit).length
      let rest := rest.dropWhile Char.isDigit
      match rest with
      | '.' :: rest => do
        let (x, rest) ← readFraction negative significand dropped rest
        .ok (.double x, rest)
      | 'e' :: _ | 'E' :: _ => do
        let (x, rest) ← readScale negative significand dropped rest
        .ok (.double x, rest)
      | _ =>
        if dropped = 0 then .ok (wholeValue negative significand, rest)
        else do .ok (.double (← scaled negative significand dropped), rest)

/-- The rest of a word. -/
def readWord : List Char → List Char → Except ReadError (Unit × List Char)
  | [], s => .ok ((), s)
  | _ :: _, [] => .error .ended
  | w :: word, c :: s => if c = w then readWord word s else .error .syntactic

/-- A list or an object may hold one less than this many levels. -/
def depthLimit : Nat := 128

mutual

/-- A value from its first character on. -/
def readValue (fuel depth : Nat) (s : List Char) : Except ReadError (Content × List Char) :=
  match fuel with
  | 0 => .error .ended
  | fuel + 1 =>
    match skipBlanks s with
    | [] => .error .ended
    | '"' :: rest => do
      let (t, rest) ← readText (rest.length + 1) [] rest
      .ok (some (.text t), rest)
    | 't' :: rest => do
      let (_, rest) ← readWord ['r', 'u', 'e'] rest
      .ok (some (.bool true), rest)
    | 'f' :: rest => do
      let (_, rest) ← readWord ['a', 'l', 's', 'e'] rest
      .ok (some (.bool false), rest)
    | 'n' :: rest => do
      let (_, rest) ← readWord ['u', 'l', 'l'] rest
      .ok (none, rest)
    | '-' :: rest => do
      let (v, rest) ← readNumber true rest
      .ok (some v, rest)
    | '[' :: rest => if depth ≤ 1 then .error .syntactic else readItems fuel (depth - 1) true rest
    | '{' :: rest => if depth ≤ 1 then .error .syntactic else readFields fuel (depth - 1) true rest
    | c :: rest =>
      if c.isDigit then do
        let (v, rest) ← readNumber false (c :: rest)
        .ok (some v, rest)
      else .error .syntactic

/-- The items of a list behind its bracket, or behind an item. -/
def readItems (fuel depth : Nat) (first : Bool) (s : List Char) :
    Except ReadError (Content × List Char) :=
  match fuel with
  | 0 => .error .ended
  | fuel + 1 =>
    match skipBlanks s with
    | [] => .error .ended
    | ']' :: rest => .ok (none, rest)
    | c :: rest =>
      if first then do
        let (_, rest) ← readValue fuel depth (c :: rest)
        readItems fuel depth false rest
      else if c = ',' then
        match skipBlanks rest with
        | [] => .error .ended
        | ']' :: _ => .error .syntactic
        | rest => do
          let (_, rest) ← readValue fuel depth rest
          readItems fuel depth false rest
      else .error .syntactic

/-- The fields of an object behind its brace, or behind a field. -/
def readFields (fuel depth : Nat) (first : Bool) (s : List Char) :
    Except ReadError (Content × List Char) :=
  match fuel with
  | 0 => .error .ended
  | fuel + 1 =>
    match skipBlanks s with
    | [] => .error .ended
    | '}' :: rest => .ok (none, rest)
    | c :: rest =>
      if first then readField fuel depth (c :: rest)
      else if c = ',' then
        match skipBlanks rest with
        | [] => .error .ended
        | rest => readField fuel depth rest
      else .error .syntactic

/-- A field from its key on, and the fields behind it. -/
def readField (fuel depth : Nat) (s : List Char) : Except ReadError (Content × List Char) :=
  match fuel with
  | 0 => .error .ended
  | fuel + 1 =>
    match s with
    | '"' :: rest => do
      let (_, rest) ← readText (rest.length + 1) [] rest
      match skipBlanks rest with
      | [] => .error .ended
      | ':' :: rest =>
        let (_, rest) ← readValue fuel depth rest
        readFields fuel depth false rest
      | _ => .error .syntactic
    | _ => .error .syntactic

end

/-- The value that a text stands for; behind it there may be blanks only. -/
def read (s : String) : Except ReadError Value := do
  let cs := s.toList
  let (content, rest) ← readValue (3 * cs.length + 3) depthLimit cs
  match content with
  | none => .error .data
  | some v => if (skipBlanks rest).isEmpty then .ok v else .error .syntactic

end Reader
end Telemetry
