/-
# Tracers

A tracer is a store together with the names under which pool sets, deferred
values, collections, records, batches, exporters and batchers are held.  The
handles of attributes are part of the store.
-/

import Telemetry.Delivery.Batcher

namespace Telemetry

open Trace

/-- A store and what is held of it by name. -/
structure Tracer where
  store : Store := {}
  sets : Keyed SetId := .empty
  cells : Keyed CellId := .empty
  collections : Keyed Collection := .empty
  records : Keyed RecordId := .empty
  batches : Keyed (List RecordId) := .empty
  exporters : Keyed Exporter := .empty
  batchers : Keyed Batcher := .empty

namespace Tracer

/-- The slot of an attribute by its handle. -/
def slot? (t : Tracer) (handle : String) : Option SlotId := t.store.handles.get? handle

/-- Gives an attribute a handle. -/
def name (t : Tracer) (handle : String) (i : SlotId) : Tracer :=
  { t with store := { t.store with handles := t.store.handles.insert handle i } }

/-- The handles of a slot in increasing order. -/
def handlesOf (t : Tracer) (i : SlotId) : List String :=
  ((t.store.handles.entries.filter fun e => e.2 = i).map Prod.fst).mergeSort fun a b => a ≤ b

/-- Carries out an operation on the store. -/
def act {α : Type} (t : Tracer) (a : Action α) : Except Fault α × Tracer :=
  match a t.store with
  | .ok x s => (.ok x, { t with store := s })
  | .error f s => (.error f, { t with store := s })

/-- The records that some names stand for, which stop standing for them; a
name can be used only once. -/
def takeRecords (t : Tracer) : List String → Option (List RecordId × Tracer)
  | [] => some ([], t)
  | n :: rest => do
    let r ← t.records.get? n
    let (rs, t) ← takeRecords { t with records := t.records.erase n } rest
    some (r :: rs, t)

/-- Records made one after the other, each of a collection that has only its
identity: the trace, and the number of the record as the span. -/
def numberedRecords (p : SetId) (trace : String) : Nat → Action (List RecordId)
  | 0 => return []
  | n + 1 => do
    let rs ← numberedRecords p trace n
    let c ← openCollection p
    discard (c.setValue Definition.traceId (.text trace))
    discard (c.setValue Definition.guid (.ofNat n))
    let r ← c.intoRecord
    return rs ++ [r]

/-- The named pool sets at this moment: slots and records. -/
def poolStats (t : Tracer) : List (String × Pool.Stats × Pool.Stats) :=
  t.sets.entries.map fun (n, p) => (n, (t.store.set p).slots.stats, (t.store.set p).records.stats)

end Tracer
end Telemetry
