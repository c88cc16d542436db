/-
# JSON texts

A JSON value as what is to be written, and its two written forms: the compact
one without any blank, and the indented one with two blanks a level and one
entry a line.  Numbers keep their own format, because the digits that read
back depend on it; a number that is not finite is written as `null`.
-/

import Telemetry.Numeric.Layout
import Telemetry.Text.Quoted

namespace Telemetry

open Numeric

/-- A JSON value. -/
inductive Json where
  | null
  | bool (b : Bool)
  | int (n : Int)
  | double (x : Binary64)
  | single (x : Binary32)
  | text (s : String)
  | list (items : List Json)
  | object (fields : List (String × Json))
  deriving Inhabited

namespace Json

/-- A value that may be missing. -/
def ofOption {α : Type} (json : α → Json) : Option α → Json
  | none => null
  | some a => json a

/-- An optional text. -/
def ofText? (s : Option String) : Json := ofOption text s

/-- A value without parts; one with parts has no such text. -/
def scalarText : Json → String
  | bool b => if b then "true" else "false"
  | int n => toString n
  | double x => if x.isFinite then Layout.json64.text x else "null"
  | single x => if x.isFinite then Layout.json32.text x else "null"
  | text s => Text.quoted s
  | _ => "null"

mutual

/-- The written form without blanks. -/
def compact : Json → String
  | list items => "[" ++ ",".intercalate (compactItems items) ++ "]"
  | object fields => "\x7b" ++ ",".intercalate (compactFields fields) ++ "\x7d"
  | scalar => scalarText scalar

/-- The items of a list, each compact. -/
def compactItems : List Json → List String
  | [] => []
  | v :: rest => compact v :: compactItems rest

/-- The fields of an object, each compact. -/
def compactFields : List (String × Json) → List String
  | [] => []
  | (k, v) :: rest => (Text.quoted k ++ ":" ++ compact v) :: compactFields rest

end

/-- A line break and `level` indentations. -/
def lineBreak (level : Nat) : String := "\n" ++ String.ofList (List.replicate (2 * level) ' ')

/-- Entries on lines of their own between two brackets. -/
def block (level : Nat) (left right : String) (entries : List String) : String :=
  if entries.isEmpty then left ++ right
  else left ++ lineBreak (level + 1) ++ ("," ++ lineBreak (level + 1)).intercalate entries ++
    lineBreak level ++ right

mutual

/-- The indented written form, at a level. -/
def indentedAt (level : Nat) : Json → String
  | list items => block level "[" "]" (indentedItems (level + 1) items)
  | object fields => block level "\x7b" "\x7d" (indentedFields (level + 1) fields)
  | scalar => scalarText scalar

/-- The items of a list, each indented. -/
def indentedItems (level : Nat) : List Json → List String
  | [] => []
  | v :: rest => indentedAt level v :: indentedItems level rest

/-- The fields of an object, each indented. -/
def indentedFields (level : Nat) : List (String × Json) → List String
  | [] => []
  | (k, v) :: rest => (Text.quoted k ++ ": " ++ indentedAt level v) :: indentedFields level rest

end

/-- The indented written form. -/
def indented (v : Json) : String := indentedAt 0 v

mutual

/-- The value with the keys of every object in increasing order. -/
def sorted : Json → Json
  | list items => list (sortedItems items)
  | object fields => object ((sortedFields fields).mergeSort fun a b => a.1 ≤ b.1)
  | scalar => scalar

/-- The items of a list, each sorted. -/
def sortedItems : List Json → List Json
  | [] => []
  | v :: rest => sorted v :: sortedItems rest

/-- The fields of an object, each sorted. -/
def sortedFields : List (String × Json) → List (String × Json)
  | [] => []
  | (k, v) :: rest => (k, sorted v) :: sortedFields rest

end

/-- The compact form with sorted keys, which does not depend on the order in
which fields were put in. -/
def sortedText (v : Json) : String := v.sorted.compact

end Json
end Telemetry
