/-
# Attributes in slots

An attribute is made in a slot from a pool and keeps it as long as references
are held on it.  When the last reference goes, the slot is emptied and offered
to the pool it came from, unless the attribute is cached; it then keeps its
slot for good.  Until it is frozen an attribute can be written.
-/

import Telemetry.Trace.Store

namespace Telemetry
namespace Trace

/-- Takes a free slot from the pool of a set. -/
def takeSlot (p : SetId) : Action SlotId := do
  let s ← get
  let (taken, pool) := (s.set p).slots.take fun i => (s.slot i).marked
  modify fun s => s.modifySet p fun q => { q with slots := pool }
  match taken with
  | .reused i =>
    modify fun s => s.modifySlot i fun slot => { slot with marked := false }
    return i
  | .missed =>
    modify fun s => { s with slots := s.slots.push {} }
    return s.slots.size
  | .unmarked _ => throw .unmarked

/-- Makes an attribute without value. -/
def createAttribute (p : SetId) (d : Definition) : Action SlotId := do
  let i ← takeSlot p
  modify fun s => s.modifySlot i fun slot =>
    { slot.reset with definition := some d, home := some p, references := 0 }
  return i

/-- Makes a copy of an attribute: a value is copied, and in its absence a
deferred value is shared.  A free slot has no copy. -/
def copyAttribute (p : SetId) (i : SlotId) : Action (Option SlotId) := do
  let source := (← get).slot i
  match source.definition with
  | none => return none
  | some d =>
    let j ← createAttribute p d
    modify fun s => s.modifySlot j fun slot =>
      match source.value with
      | some v => { slot with value := some v }
      | none => { slot with deferred := source.deferred }
    return some j

/-- Writes a value, unless the attribute is frozen. -/
def Slot.setValue (v : Value) (s : Slot) : Slot :=
  if s.immutable then s else { s with value := some v }

/-- Writes a deferred value, unless the attribute is frozen. -/
def Slot.setDeferred (c : CellId) (s : Slot) : Slot :=
  if s.immutable then s else { s with deferred := some c }

/-- One more reference on an attribute. -/
def addReference (i : SlotId) : Action Unit :=
  modify fun s => s.modifySlot i fun slot => { slot with references := slot.references + 1 }

/-- Offers a slot to the pool of a set. -/
def putSlot (p : SetId) (i : SlotId) : Action Unit :=
  modify fun s =>
    let (refusal, pool) := (s.set p).slots.put (s.slot i).marked i
    let s := s.modifySet p fun q => { q with slots := pool }
    match refusal with
    | none => s.modifySlot i fun slot => { slot with marked := true }
    | some .alreadyPooled => s.report [.slotRejected Pool.Refusal.alreadyPooled.message]
    | some (.overflow n) => s.report [.itemOverflow n]

/-- Empties a slot and offers it to the pool it came from, if that pool is
still there.  A cached attribute keeps its slot, and a free slot cannot be
emptied again. -/
def releaseSlot (i : SlotId) : Action Unit := do
  let slot := (← get).slot i
  match slot.definition with
  | none => throw .doubleReset
  | some d =>
    if d.cached then return
    modify fun s => s.modifySlot i Slot.reset
    match slot.home with
    | some p => if (← get).isAlive p then putSlot p i
    | none => return

/-- Gives up a reference; whether it was the last one.  Without references
nothing happens. -/
def removeReference (i : SlotId) : Action Bool := do
  let n := ((← get).slot i).references
  if n = 0 then return false
  modify fun s => s.modifySlot i fun slot => { slot with references := n - 1 }
  if n = 1 then
    releaseSlot i
    return true
  return false

/-- Ends the windows of the two pools of a set. -/
def tickSet (p : SetId) : Action (List Pool.Update) := do
  let q := (← get).set p
  let (u, _, slots) := q.slots.tick
  let (v, _, records) := q.records.tick
  modify fun s =>
    (s.modifySet p fun q => { q with slots := slots, records := records }).report [u.event, v.event]
  return [u, v]

end Trace
end Telemetry
