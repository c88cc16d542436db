/-
# What can be seen of a store

Attributes and records as they show themselves: as data, as JSON and as texts
for inspection.
-/

import Telemetry.Trace.Collection

namespace Telemetry
namespace Trace

open Numeric

/-- What can be seen of an attribute. -/
structure AttributeView where
  definition : Option Definition
  value : Option Value
  /-- Whether a deferred value was computed, and its result. -/
  deferred : Option (Bool × Option Value)
  immutable : Bool
  references : Nat

/-- What can be seen of a record. -/
structure RecordView where
  displayName : String
  traceId : String
  spanId : String
  count : Nat
  priority : Binary32
  /-- The attributes by category. -/
  maps : List (List (String × AttributeView))
  json : Json

/-- A part of a text for inspection that may be missing. -/
def inspectOption (text : Option String) : String :=
  match text with
  | none => "None"
  | some t => "Some(" ++ t ++ ")"

/-- A deferred value for inspection. -/
def Cell.inspect (c : Cell) : String :=
  match c.progress with
  | .finished v => "LazyValue(" ++ inspectOption (v.map Value.inspect) ++ ")"
  | _ => "LazyValue(<pending>)"

/-- A record for inspection. -/
def Record.inspect (r : Record) : String :=
  "SpanRecord \x7b identity: SpanIdentity \x7b trace_id: " ++ Text.inspected r.traceId ++
    ", span_id: " ++ Text.inspected r.spanId ++ " \x7d, attributes: " ++
    toString r.attributeCount ++ ", priority: " ++ Layout.inspect.text r.priority ++ ", .. \x7d"

end Trace

namespace Store

open Trace

/-- What can be seen of an attribute. -/
def viewSlot (s : Store) (i : SlotId) : AttributeView :=
  let slot := s.slot i
  { definition := slot.definition
    value := slot.value
    deferred := slot.deferred.map fun c => ((s.cell c).isFinished, (s.cell c).result?)
    immutable := slot.immutable
    references := slot.references }

/-- An attribute for inspection. -/
def inspectSlot (s : Store) (i : SlotId) : String :=
  let slot := s.slot i
  "PooledAttribute \x7b name: " ++
    inspectOption (slot.definition.map fun d => Text.inspected d.name) ++
    ", value: " ++ inspectOption (slot.value.map Value.inspect) ++
    ", lazy: " ++ inspectOption (slot.deferred.map fun c => (s.cell c).inspect) ++
    ", immutable: " ++ (if slot.immutable then "true" else "false") ++
    ", ref_count: " ++ toString slot.references ++ " \x7d"

/-- The attributes of a record in a category that have a value, as JSON. -/
def attributesJson (s : Store) (m : Keyed SlotId) : Json :=
  .object (m.entries.filterMap fun (k, i) => (s.slot i).value.map fun v => (k, v.toJson))

/-- A record as JSON. -/
def recordJson (s : Store) (r : RecordId) : Json :=
  let record := s.record r
  .object [("traceId", .text record.traceId), ("spanId", .text record.spanId),
    ("priority", .single record.priority),
    (Category.intrinsic.label, s.attributesJson record.intrinsics),
    (Category.agent.label, s.attributesJson record.agent),
    (Category.user.label, s.attributesJson record.user)]

/-- A batch of records as JSON. -/
def batchJson (s : Store) (rs : List RecordId) : Json := .list (rs.map s.recordJson)

/-- The names under which the spans of a batch are shown. -/
def displayNames (s : Store) (rs : List RecordId) : List String :=
  rs.map fun r => (s.record r).displayName

/-- What can be seen of a record. -/
def viewRecord (s : Store) (r : RecordId) : RecordView :=
  let record := s.record r
  { displayName := record.displayName
    traceId := record.traceId
    spanId := record.spanId
    count := record.attributeCount
    priority := record.priority
    maps := Category.all.map fun k =>
      (record.attributes k).entries.map fun (name, i) => (name, s.viewSlot i)
    json := s.recordJson r }

end Store
end Telemetry
