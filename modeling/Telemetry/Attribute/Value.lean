/-
# Attribute values

A value is a truth value, a whole number of 64 bits, a number of 64 bits or a
text.  Numbers of other sizes, spans of time and timestamps become one of
these.
-/

import Telemetry.Json.Basic
import Telemetry.Keyed
import Telemetry.Time.Duration
import Telemetry.Time.Timestamp

namespace Telemetry

open Numeric Time

/-- The value of an attribute. -/
inductive Value where
  | bool (b : Bool)
  | int (n : Int64)
  | double (x : Binary64)
  | text (s : String)
  deriving DecidableEq, Inhabited

namespace Value

/-- A natural number, cut off at the greatest whole number. -/
def ofNat (n : Nat) : Value := int (Int64.ofNat (min n 9223372036854775807))

/-- A number of 32 bits, which a number of 64 bits holds exactly. -/
def ofBinary32 (x : Binary32) : Value := double x.convert

/-- A span of time in seconds. -/
def ofDuration (d : Duration) : Value := double d.toBinary64

/-- An instant as its text at an offset. -/
def ofInstant (t : Instant) (offset : Int) : Value := text (t.text offset)

/-- The text of a value. -/
def display : Value → String
  | bool b => if b then "true" else "false"
  | int n => toString n.toInt
  | double x => Layout.plain.text x
  | text s => s

/-- The text of a value for inspection. -/
def inspect : Value → String
  | bool b => if b then "Bool(true)" else "Bool(false)"
  | int n => "Int(" ++ toString n.toInt ++ ")"
  | double x => "Double(" ++ Layout.inspect.text x ++ ")"
  | text s => "String(" ++ Text.inspected s ++ ")"

/-- A value in JSON carries no mark of its kind. -/
def toJson : Value → Json
  | bool b => .bool b
  | int n => .int n.toInt
  | double x => .double x
  | text s => .text s

/-- Equality of values; that of numbers is numeric, so `nan` differs from
itself and values of two kinds always differ. -/
def equals : Value → Value → Bool
  | bool a, bool b => a == b
  | int a, int b => a == b
  | double a, double b => a.equals b
  | text a, text b => a == b
  | _, _ => false

/-- The text of a text value. -/
def asText? : Value → Option String
  | text s => some s
  | _ => none

/-- The truth value of a truth value. -/
def asBool? : Value → Option Bool
  | bool b => some b
  | _ => none

/-- The whole number of a whole number. -/
def asInt? : Value → Option Int64
  | int n => some n
  | _ => none

/-- The number of a number. -/
def asDouble? : Value → Option Binary64
  | double x => some x
  | _ => none

end Value

/-- Values under text keys, as JSON. -/
def Keyed.toJson {α : Type} (json : α → Json) (m : Keyed α) : Json :=
  .object (m.entries.map fun (k, v) => (k, json v))

end Telemetry
