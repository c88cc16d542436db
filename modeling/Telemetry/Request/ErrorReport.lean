/-
# Error reports

What is kept of an error that a request met.
-/

import Telemetry.Attribute.Value

namespace Telemetry

open Time

/-- An error with the circumstances under which it arose. -/
structure ErrorReport where
  kind : String
  message : String
  trace : Option String := none
  occurredAt : Instant
  expected : Bool := false
  attributes : Keyed Value := .empty

namespace ErrorReport

/-- The trace of a chain of causes, one line each; without a cause there is
none. -/
def causeTrace : List String → Option String
  | [] => none
  | causes => some ("\n".intercalate (causes.map ("caused by: " ++ ·)))

/-- The report of an error with its causes, the nearest one first. -/
def ofCauses (kind message : String) (causes : List String) (at' : Instant) : ErrorReport :=
  { kind := kind, message := message, trace := causeTrace causes, occurredAt := at' }

/-- The report with one more attribute. -/
def withAttribute (r : ErrorReport) (key : String) (v : Value) : ErrorReport :=
  { r with attributes := r.attributes.insert key v }

/-- A report as JSON. -/
def toJson (r : ErrorReport) : Json :=
  .object [("errorType", .text r.kind), ("message", .text r.message),
    ("stackTrace", .ofText? r.trace), ("occurredAt", .text r.occurredAt.universalText),
    ("isExpected", .bool r.expected), ("customAttributes", r.attributes.toJson Value.toJson)]

/-- Equality of reports, with that of values for the attributes. -/
def equals (a b : ErrorReport) : Bool :=
  a.kind == b.kind && a.message == b.message && a.trace == b.trace &&
    a.occurredAt == b.occurredAt && a.expected == b.expected &&
    a.attributes.equalsBy Value.equals b.attributes

end ErrorReport
end Telemetry
