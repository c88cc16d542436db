/-
# Deferred values

A deferred value is computed when an attribute that carries it, and has no
value of its own, is frozen, or when it is asked for.  Everyone who carries it
sees the one result.  Its computation may work on attributes itself, and so
may force other deferred values; since a value whose computation runs cannot
be forced again, the depth of that is bounded by the number of deferred
values.
-/

import Telemetry.Trace.Attribute

namespace Telemetry
namespace Trace

/-- Freezes an attribute; one without a value takes over the result of its
deferred value.  A value written while that was computed stays. -/
def freezeWith (force : CellId → Action (Option Value)) (i : SlotId) : Action Unit := do
  let slot := (← get).slot i
  if slot.immutable then return
  let result ← match slot.value, slot.deferred with
    | none, some c => force c
    | _, _ => pure none
  modify fun s => s.modifySlot i fun slot =>
    if slot.immutable then slot
    else { slot with value := slot.value.or result, immutable := true }

/-- Does what computing a deferred value does to an attribute. -/
def performWith (force : CellId → Action (Option Value)) (e : Effect) : Action Unit := do
  match (← get).handles.get? e.handle with
  | none => return
  | some i =>
    match e.deed with
    | .setValue v => modify fun s => s.modifySlot i (Slot.setValue v)
    | .freeze => freezeWith force i
    | .addReference => addReference i
    | .removeReference => discard (removeReference i)

/-- The result of a deferred value, computed if it was not yet, with so many
levels of deferred values below. -/
def forceWithin : Nat → CellId → Action (Option Value)
  | 0, _ => throw .circular
  | n + 1, c => do
    match ((← get).cell c).progress with
    | .finished v => return v
    | .running => throw .circular
    | .pending =>
      modify fun s => s.modifyCell c fun cell =>
        { cell with progress := .running, calls := cell.calls + 1 }
      Action.undoing (((← get).cell c).effects.forM (performWith (forceWithin n)))
        fun s => s.modifyCell c fun cell => { cell with progress := .pending }
      let v := ((← get).cell c).yields
      modify fun s => s.modifyCell c fun cell => { cell with progress := .finished v }
      return v

/-- The result of a deferred value, computed if it was not yet. -/
def force (c : CellId) : Action (Option Value) := do forceWithin ((← get).cells.size + 1) c

/-- Freezes an attribute. -/
def freezeAttribute (i : SlotId) : Action Unit := freezeWith force i

/-- A new deferred value. -/
def deferValue (v : Option Value) (effects : List Effect) : Action CellId := do
  let c := (← get).cells.size
  modify fun s => { s with cells := s.cells.push { yields := v, effects := effects } }
  return c

end Trace
end Telemetry
