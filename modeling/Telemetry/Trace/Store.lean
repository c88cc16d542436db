/-
# The store of a tracer

Attributes, deferred values, span records and pool sets live in one store and
go by identities that are never used again.  Handles name attributes; a handle
of an attribute that was given up goes on to name the slot, whatever the slot
is used for next.

An operation either ends with a result or is broken off by a fault; what it
did before stays done.
-/

import Telemetry.Attribute.Definition
import Telemetry.Attribute.Value
import Telemetry.Pool.Basic

namespace Telemetry
namespace Trace

open Numeric

/-- The identity of an attribute slot. -/
abbrev SlotId := Nat

/-- The identity of a deferred value. -/
abbrev CellId := Nat

/-- The identity of a span record. -/
abbrev RecordId := Nat

/-- The identity of a pool set. -/
abbrev SetId := Nat

/-- What an attribute is kept in.  A slot without a definition is free. -/
structure Slot where
  definition : Option Definition := none
  value : Option Value := none
  deferred : Option CellId := none
  immutable : Bool := false
  /-- How many references are held on the attribute.  A counter of 32 bits agrees
  with this number while fewer than `2 ^ 32` of them are held at a time. -/
  references : Nat := 0
  /-- The pool set the slot was taken from. -/
  home : Option SetId := none
  /-- Whether the slot is marked as being in a pool. -/
  marked : Bool := false
  deriving Inhabited

/-- The slot without its attribute. -/
def Slot.reset (s : Slot) : Slot :=
  { s with definition := none, value := none, deferred := none, immutable := false }

/-- What computing a deferred value does to an attribute. -/
inductive Deed where
  | setValue (v : Value)
  | freeze
  | addReference
  | removeReference

/-- A deed done to the attribute that a handle names, if it names one. -/
structure Effect where
  handle : String
  deed : Deed

/-- How far the computation of a deferred value is. -/
inductive Progress where
  | pending
  | running
  | finished (v : Option Value)

/-- A deferred value: what it will be, and what computing it does besides. -/
structure Cell where
  yields : Option Value
  effects : List Effect := []
  progress : Progress := .pending
  /-- How often the computation was begun. -/
  calls : Nat := 0
  deriving Inhabited

/-- The result of a deferred value that was computed and has one. -/
def Cell.result? (c : Cell) : Option Value :=
  match c.progress with
  | .finished v => v
  | _ => none

/-- Whether a deferred value was computed. -/
def Cell.isFinished (c : Cell) : Bool :=
  match c.progress with
  | .finished _ => true
  | _ => false

/-- A span record: its identity, its attributes by category, its priority. -/
structure Record where
  traceId : String := ""
  spanId : String := ""
  intrinsics : Keyed SlotId := .empty
  agent : Keyed SlotId := .empty
  user : Keyed SlotId := .empty
  priority : Binary32 := .zero false
  /-- The pool set the record was taken from. -/
  home : Option SetId := none
  /-- Whether the record is marked as being in a pool. -/
  marked : Bool := false
  deriving Inhabited

namespace Record

/-- The attributes of a category. -/
def attributes (r : Record) : Category → Keyed SlotId
  | .intrinsic => r.intrinsics
  | .agent => r.agent
  | .user => r.user

/-- Replaces the attributes of a category. -/
def setAttributes (r : Record) (m : Keyed SlotId) : Category → Record
  | .intrinsic => { r with intrinsics := m }
  | .agent => { r with agent := m }
  | .user => { r with user := m }

/-- How many attributes a record has. -/
def attributeCount (r : Record) : Nat := r.intrinsics.size + r.agent.size + r.user.size

/-- The name under which a span is shown. -/
def displayName (r : Record) : String := r.traceId ++ "." ++ r.spanId

end Record

/-- Two pools, and how many hold on to them. -/
structure PoolSet where
  slots : Pool SlotId
  records : Pool RecordId
  holders : Nat := 1
  deriving Inhabited

/-- What breaks an operation off. -/
inductive Fault where
  /-- The last reference on a slot without attribute was given up. -/
  | doubleReset
  /-- A pool stored something without its mark. -/
  | unmarked
  /-- Computing a deferred value needs that value. -/
  | circular
  deriving DecidableEq

/-- The text of a fault. -/
def Fault.message : Fault → String
  | doubleReset => "INV-ATTR-01 violated: attribute slot reset twice"
  | unmarked => "INV-POOL-01 violated: a stored item's pooled flag was clear"
  | circular => "a deferred value depends on itself"

end Trace

/-- Attributes, deferred values, span records and pools. -/
structure Store where
  slots : Array Trace.Slot := #[]
  cells : Array Trace.Cell := #[]
  records : Array Trace.Record := #[]
  sets : Array Trace.PoolSet := #[]
  /-- The handles of attributes. -/
  handles : Keyed Trace.SlotId := .empty
  /-- Milliseconds since the start.  A clock that counts nanoseconds is seen at whole
  milliseconds only: time is moved on by them, and a wait between attempts is rounded
  up to them. -/
  now : Nat := 0
  /-- The events reported so far. -/
  log : Array Event := #[]
  deriving Inhabited

/-- An operation on a store. -/
abbrev Action := EStateM Trace.Fault Store

namespace Store

open Trace

/-- A slot by its identity. -/
def slot (s : Store) (i : SlotId) : Slot := s.slots[i]?.getD default

/-- A deferred value by its identity. -/
def cell (s : Store) (c : CellId) : Cell := s.cells[c]?.getD default

/-- A record by its identity. -/
def record (s : Store) (r : RecordId) : Record := s.records[r]?.getD default

/-- A pool set by its identity. -/
def set (s : Store) (p : SetId) : PoolSet := s.sets[p]?.getD default

/-- Changes a slot. -/
def modifySlot (s : Store) (i : SlotId) (f : Slot → Slot) : Store :=
  { s with slots := s.slots.modify i f }

/-- Changes a deferred value. -/
def modifyCell (s : Store) (c : CellId) (f : Cell → Cell) : Store :=
  { s with cells := s.cells.modify c f }

/-- Changes a record. -/
def modifyRecord (s : Store) (r : RecordId) (f : Record → Record) : Store :=
  { s with records := s.records.modify r f }

/-- Changes a pool set. -/
def modifySet (s : Store) (p : SetId) (f : PoolSet → PoolSet) : Store :=
  { s with sets := s.sets.modify p f }

/-- Reports events. -/
def report (s : Store) (events : List Event) : Store := { s with log := s.log ++ events }

/-- Whether anybody holds on to a pool set. -/
def isAlive (s : Store) (p : SetId) : Bool := (s.set p).holders ≠ 0

/-- One more holder of a pool set. -/
def hold (s : Store) (p : SetId) : Store :=
  s.modifySet p fun q => { q with holders := q.holders + 1 }

/-- One holder less; with the last one the pools lose what they store. -/
def letGo (s : Store) (p : SetId) : Store :=
  s.modifySet p fun q =>
    if q.holders ≤ 1 then
      { q with
        holders := 0
        slots := { q.slots with stored := [] }
        records := { q.records with stored := [] } }
    else { q with holders := q.holders - 1 }

end Store

/-- An operation that is followed by a change of the store in any case. -/
def Action.ensuring {α : Type} (a : Action α) (change : Store → Store) : Action α := fun s =>
  match a s with
  | .ok x s => .ok x (change s)
  | .error f s => .error f (change s)

/-- An operation that is followed by a change of the store if it is broken
off. -/
def Action.undoing {α : Type} (a : Action α) (change : Store → Store) : Action α := fun s =>
  match a s with
  | .ok x s => .ok x s
  | .error f s => .error f (change s)

end Telemetry
