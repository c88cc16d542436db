/-
# Records and collections

A record is leased from the pool of a set, blank, and is blank again when it
is released; its attributes lose the references that it held on them.  A
collection gathers attributes into a leased record.  An attribute goes by its
own category and name, and one that takes the place of another makes that one
lose a reference.  Two names also fix the identity of the record, with the
text of the value that the attribute has when it is put in.
-/

import Telemetry.Trace.Deferred

namespace Telemetry
namespace Trace

/-- Leases a record from the pool of a set. -/
def leaseRecord (p : SetId) : Action RecordId := do
  let s ← get
  let (taken, pool) := (s.set p).records.take fun r => (s.record r).marked
  modify fun s => s.modifySet p fun q => { q with records := pool }
  match taken with
  | .reused r =>
    modify fun s => s.modifyRecord r fun record => { record with marked := false, home := some p }
    return r
  | .missed =>
    modify fun s => { s with records := s.records.push { home := some p } }
    return s.records.size
  | .unmarked _ => throw .unmarked

/-- Takes the attributes of a category out of a record and gives up the
references on them. -/
def clearCategory (r : RecordId) (c : Category) : Action Unit := do
  let held := (((← get).record r).attributes c).values
  modify fun s => s.modifyRecord r fun record => record.setAttributes .empty c
  held.forM fun i => discard (removeReference i)

/-- Offers a record to the pool of a set. -/
def putRecord (p : SetId) (r : RecordId) : Action Unit :=
  modify fun s =>
    let (refusal, pool) := (s.set p).records.put (s.record r).marked r
    let s := s.modifySet p fun q => { q with records := pool }
    match refusal with
    | none => s.modifyRecord r fun record => { record with marked := true }
    | some .alreadyPooled => s.report [.recordRejected Pool.Refusal.alreadyPooled.message]
    | some (.overflow n) => s.report [.itemOverflow n]

/-- Blanks a record and offers it to the pool it came from, if that pool is
still there. -/
def releaseRecord (r : RecordId) : Action Unit := do
  Category.all.forM (clearCategory r)
  modify fun s => s.modifyRecord r fun record =>
    { record with traceId := "", spanId := "", priority := .zero false }
  match ((← get).record r).home with
  | some p => if (← get).isAlive p then putRecord p r
  | none => return

/-- Releases records one after the other. -/
def releaseRecords (rs : List RecordId) : Action Unit := rs.forM releaseRecord

/-- A collection of attributes for one record. -/
structure Collection where
  pools : SetId
  record : RecordId
  deriving DecidableEq, Inhabited

/-- Opens a collection, which holds on to its pool set. -/
def openCollection (p : SetId) : Action Collection := do
  let r ← leaseRecord p
  modify fun s => s.hold p
  return ⟨p, r⟩

/-- The record with the identity that an attribute of this name and value
gives it. -/
def Record.identify (r : Record) (name : String) (v : Option Value) : Record :=
  let text := v.elim "" Value.display
  if name = Definition.traceIdName then { r with traceId := text }
  else if name = Definition.guidName then { r with spanId := text }
  else r

namespace Collection

/-- Puts an attribute into a collection; whether its place was empty.  A free
slot is not put in, and an attribute that is there already stays as it is. -/
def install (c : Collection) (i : SlotId) : Action Bool := do
  let slot := (← get).slot i
  match slot.definition with
  | none => return false
  | some d =>
    modify fun s => s.modifyRecord c.record fun r => r.identify d.name slot.value
    let place (r : Record) : Record :=
      r.setAttributes ((r.attributes d.category).insert d.name i) d.category
    match (((← get).record c.record).attributes d.category).get? d.name with
    | some j =>
      if j = i then return false
      discard (removeReference j)
      addReference i
      modify fun s => s.modifyRecord c.record place
      return false
    | none =>
      addReference i
      modify fun s => s.modifyRecord c.record place
      return true

/-- Puts a new attribute with a value into a collection. -/
def setValue (c : Collection) (d : Definition) (v : Value) : Action Bool := do
  let i ← createAttribute c.pools d
  modify fun s => s.modifySlot i (Slot.setValue v)
  c.install i

/-- Puts a new attribute with a deferred value into a collection. -/
def setDeferred (c : Collection) (d : Definition) (cell : CellId) : Action Bool := do
  let i ← createAttribute c.pools d
  modify fun s => s.modifySlot i (Slot.setDeferred cell)
  c.install i

/-- Takes an attribute out if the collection holds this very one under the
name; whether it did. -/
def removeNamed (c : Collection) (k : Category) (name : String) (i : SlotId) : Action Bool := do
  if (((← get).record c.record).attributes k).get? name = some i then
    modify fun s => s.modifyRecord c.record fun r =>
      r.setAttributes ((r.attributes k).erase name) k
    discard (removeReference i)
    return true
  return false

/-- Takes those of some attributes out that the collection holds; how many.
Where an attribute goes is read before the first one is taken out. -/
def removeMany (c : Collection) (slots : List SlotId) : Action Nat := do
  let s ← get
  let bound := slots.filterMap fun i => (s.slot i).definition.map fun d => (i, d)
  let ordered := Category.all.flatMap fun k => bound.filter fun e => e.2.category = k
  let removed ← ordered.mapM fun (i, d) => c.removeNamed d.category d.name i
  return (removed.filter id).length

/-- Freezes the attributes of a collection. -/
def freeze (c : Collection) : Action Unit :=
  Category.all.forM fun k => do
    (((← get).record c.record).attributes k).values.forM freezeAttribute

/-- Closes a collection without keeping its record. -/
def close (c : Collection) : Action Unit :=
  (releaseRecord c.record).ensuring (·.letGo c.pools)

/-- Closes a collection and keeps its record, the attributes frozen.  If a
deferred value cannot be computed the record is lost. -/
def intoRecord (c : Collection) : Action RecordId :=
  Action.undoing
    (do
      c.freeze
      modify (·.letGo c.pools)
      return c.record)
    fun s => match c.close s with
      | .ok _ s => s
      | .error _ s => s

end Collection
end Trace
end Telemetry
