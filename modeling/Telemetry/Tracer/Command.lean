/-
# Working with a tracer

The commands name what they work on; each one has an answer.  A name that is
given something new lets go of what it stood for.
-/

import Telemetry.Tracer.Basic

namespace Telemetry
namespace Tracer

open Numeric Trace

/-- What can be asked of a tracer. -/
inductive Command where
  -- pool sets
  | setUp (set : String) (slots records : Pool.Config)
  | dropSet (set : String)
  /-- Ends the windows of the two pools of a set. -/
  | tick (set : String)
  -- deferred values
  | defer (cell : String) (v : Option Value) (effects : List Effect)
  | force (cell : String)
  | lookCell (cell : String)
  -- attributes
  | create (set handle : String) (d : Definition)
  | copy (set handle source : String)
  | setValue (handle : String) (v : Option Value)
  | setDeferred (handle cell : String)
  | freezeAttribute (handle : String)
  | look (handle : String)
  | addReference (handle : String)
  | removeReference (handle : String)
  | inspect (handle : String)
  | same (handle other : String)
  | forget (handle : String)
  -- collections
  | openCollection (set collection : String)
  | put (collection : String) (d : Definition) (v : Value)
  | putDeferred (collection : String) (d : Definition) (cell : String)
  | putAttribute (collection handle : String)
  | removeMany (collection : String) (handles : List String)
  | get (collection : String) (category : Category) (name : String) (handle : Option String)
  | prioritize (collection : String) (x : Binary32)
  | freeze (collection : String)
  | lookCollection (collection : String)
  | inspectCollection (collection : String)
  | dropCollection (collection : String)
  | intoRecord (collection record : String)
  -- records
  | lease (set record : String)
  | lookRecord (record : String)
  | inspectRecord (record : String)
  | prioritizeRecord (record : String) (x : Binary32)
  /-- Writes an attribute into a record under a name of its own, with or
  without a reference on it. -/
  | insert (record : String) (category : Category) (name handle : String) (counted : Bool)
  | release (record : String)
  /-- Lets go of a record without releasing it. -/
  | dropRecord (record : String)
  -- batches
  | batch (batch : String) (records : List String)
  | batchAdd (batch record : String)
  | lookBatch (batch : String)
  /-- Releases the records of a batch. -/
  | sent (batch : String)
  | discard (batch : String) (release : Bool)
  | send (exporter batch : String)
  -- exporters and batchers
  | exporter (exporter : String) (sink : Sink) (policy : Option Retry.Policy)
  | lookExporter (exporter : String)
  | batcher (batcher : String) (limits : BatchLimits)
  | enqueue (batcher record : String)
  | enqueueNumbered (batcher set trace : String) (n : Nat)
  | flush (batcher exporter : String)
  | takeBatch (batcher batch : String)
  | lookBatcher (batcher : String)
  | count (batcher : String) (success dropped : Option Nat) (error : Bool)
  | advance (milliseconds : Nat)

/-- What a tracer answers. -/
inductive Reply where
  | done
  | flag (b : Bool)
  | count (n : Nat)
  | count? (n : Option Nat)
  | text (s : String)
  | names (l : List String)
  /-- There is nothing to copy. -/
  | free
  | updates (us : List Pool.Update)
  | forced (v : Option Value) (calls : Nat)
  | cell (finished : Bool) (v : Option Value) (calls : Nat) (text : String)
  | attribute (v : Option AttributeView)
  | unreferenced (last : Bool) (v : AttributeView)
  | opened (displayName : String) (isEmpty : Bool)
  | single (x : Binary32)
  | collection (r : RecordView)
  | record (r : RecordView)
  | batch (names : List String) (json : Json)
  | failure (f : ExportFailure)
  | exporter (e : Exporter)
  | batcher (b : Batcher) (shouldFlush : Bool)
  | fault (f : Fault)
  /-- A name stands for nothing. -/
  | unknown

/-- What follows an operation on the store. -/
def after {α : Type} (t : Tracer) (a : Action α) (k : α → Tracer → Reply × Tracer) :
    Reply × Tracer :=
  match t.act a with
  | (.ok x, t) => k x t
  | (.error f, t) => (.fault f, t)

/-- The answer that shows an attribute. -/
def showSlot (i : SlotId) (t : Tracer) : Reply × Tracer :=
  (.attribute (some (t.store.viewSlot i)), t)

/-- The answer that shows a batcher. -/
def showBatcher (b : Batcher) (t : Tracer) : Reply × Tracer :=
  (.batcher b (b.shouldFlush t.store.now), t)

/-- Keeps a batcher under its name and shows it. -/
def keepBatcher (q : String) (b : Batcher) (t : Tracer) : Reply × Tracer :=
  showBatcher b { t with batchers := t.batchers.insert q b }

/-- Gives a new attribute a handle; the answer are the handles that its slot
had before. -/
def nameNew (h : String) (i : SlotId) (t : Tracer) : Reply × Tracer :=
  (.names (t.handlesOf i), t.name h i)

/-- Carries out a command on pool sets, deferred values or attributes on what
its names stand for. -/
def performAttribute? (t : Tracer) : Command → Option (Reply × Tracer)
  | .setUp n slots records =>
    let old := t.sets.get? n
    let s := t.store
    let p := s.sets.size
    let set : PoolSet := { slots := .ofConfig slots, records := .ofConfig records }
    let s := { s with sets := s.sets.push set }
    some (.done, { t with store := old.elim s s.letGo, sets := t.sets.insert n p })
  | .dropSet n => do
    let p ← t.sets.get? n
    some (.flag true, { t with store := t.store.letGo p, sets := t.sets.erase n })
  | .tick n => do
    let p ← t.sets.get? n
    some (t.after (tickSet p) fun us t => (.updates us, t))
  | .defer n v effects =>
    some (t.after (deferValue v effects) fun c t => (.done, { t with cells := t.cells.insert n c }))
  | .force n => do
    let c ← t.cells.get? n
    some (t.after (Trace.force c) fun v t => (.forced v (t.store.cell c).calls, t))
  | .lookCell n => do
    let c := t.store.cell (← t.cells.get? n)
    some (.cell c.isFinished c.result? c.calls c.inspect, t)
  | .create n h d => do
    let p ← t.sets.get? n
    some (t.after (createAttribute p d) (nameNew h))
  | .copy n h source => do
    let p ← t.sets.get? n
    let i ← t.slot? source
    some (t.after (copyAttribute p i) fun j t => match j with
      | some j => nameNew h j t
      | none => (.free, t))
  | .setValue h v => do
    let i ← t.slot? h
    let write : Action Unit := match v with
      | some v => modify fun s => s.modifySlot i (Slot.setValue v)
      | none => return
    some (t.after write fun _ => showSlot i)
  | .setDeferred h n => do
    let i ← t.slot? h
    let c ← t.cells.get? n
    some (t.after (modify fun s => s.modifySlot i (Slot.setDeferred c)) fun _ => showSlot i)
  | .freezeAttribute h => do
    let i ← t.slot? h
    some (t.after (Trace.freezeAttribute i) fun _ => showSlot i)
  | .look h => do some (showSlot (← t.slot? h) t)
  | .addReference h => do
    let i ← t.slot? h
    some (t.after (Trace.addReference i) fun _ t => (.count (t.store.slot i).references, t))
  | .removeReference h => do
    let i ← t.slot? h
    some (t.after (Trace.removeReference i) fun last t =>
      (.unreferenced last (t.store.viewSlot i), t))
  | .inspect h => do some (.text (t.store.inspectSlot (← t.slot? h)), t)
  | .same h other => do
    let i ← t.slot? h
    let j ← t.slot? other
    some (.flag (i == j), t)
  | .forget h =>
    some (.flag (t.slot? h).isSome,
      { t with store := { t.store with handles := t.store.handles.erase h } })
  | _ => none

/-- Carries out a command on collections or records on what its names stand
for. -/
def performRecord? (t : Tracer) : Command → Option (Reply × Tracer)
  | .openCollection n cn => do
    let p ← t.sets.get? n
    let old := t.collections.get? cn
    some (t.after (Trace.openCollection p) fun c t =>
      let record := t.store.record c.record
      let reply := Reply.opened record.displayName (record.attributeCount == 0)
      { t with collections := t.collections.insert cn c }.after
        (old.elim (pure ()) Collection.close) fun _ t => (reply, t))
  | .put cn d v => do
    let c ← t.collections.get? cn
    some (t.after (c.setValue d v) fun b t => (.flag b, t))
  | .putDeferred cn d n => do
    let c ← t.collections.get? cn
    let cell ← t.cells.get? n
    some (t.after (c.setDeferred d cell) fun b t => (.flag b, t))
  | .putAttribute cn h => do
    let c ← t.collections.get? cn
    let i ← t.slot? h
    some (t.after (c.install i) fun b t => (.flag b, t))
  | .removeMany cn hs => do
    let c ← t.collections.get? cn
    let slots ← hs.mapM t.slot?
    some (t.after (c.removeMany slots) fun n t => (.count n, t))
  | .get cn category name h => do
    let c ← t.collections.get? cn
    match ((t.store.record c.record).attributes category).get? name with
    | none => some (.attribute none, t)
    | some i => some (showSlot i (h.elim t fun h => t.name h i))
  | .prioritize cn x => do
    let c ← t.collections.get? cn
    let s := t.store.modifyRecord c.record fun r => { r with priority := x }
    some (.single x, { t with store := s })
  | .freeze cn => do
    let c ← t.collections.get? cn
    some (t.after c.freeze fun _ t => (.done, t))
  | .lookCollection cn => do
    let c ← t.collections.get? cn
    some (.collection (t.store.viewRecord c.record), t)
  | .inspectCollection cn => do
    let c ← t.collections.get? cn
    some (.text ("AttributeCollection \x7b record: " ++
      inspectOption (some (t.store.record c.record).inspect) ++ ", .. \x7d"), t)
  | .dropCollection cn => do
    let c ← t.collections.get? cn
    some ({ t with collections := t.collections.erase cn }.after c.close fun _ t => (.done, t))
  | .intoRecord cn n => do
    let c ← t.collections.get? cn
    some ({ t with collections := t.collections.erase cn }.after c.intoRecord fun r t =>
      (.text (t.store.record r).displayName, { t with records := t.records.insert n r }))
  | .lease n rn => do
    let p ← t.sets.get? n
    some (t.after (leaseRecord p) fun r t =>
      (.record (t.store.viewRecord r), { t with records := t.records.insert rn r }))
  | .lookRecord n => do some (.record (t.store.viewRecord (← t.records.get? n)), t)
  | .inspectRecord n => do some (.text (t.store.record (← t.records.get? n)).inspect, t)
  | .prioritizeRecord n x => do
    let r ← t.records.get? n
    let s := t.store.modifyRecord r fun record => { record with priority := x }
    some (.single x, { t with store := s })
  | .insert n category name h counted => do
    let r ← t.records.get? n
    let i ← t.slot? h
    let m := (t.store.record r).attributes category
    let insert : Action Unit := do
      if counted then Trace.addReference i
      modify fun s => s.modifyRecord r fun record =>
        record.setAttributes (m.insert name i) category
    some (t.after insert fun _ t => (.flag (m.contains name), t))
  | .release n => do
    let r ← t.records.get? n
    some ({ t with records := t.records.erase n }.after (releaseRecord r) fun _ t => (.done, t))
  | .dropRecord n => do
    discard (t.records.get? n)
    some (.done, { t with records := t.records.erase n })
  | _ => none

/-- Carries out a command on batches, exporters or batchers on what its names
stand for. -/
def performDelivery? (t : Tracer) : Command → Option (Reply × Tracer)
  | .batch n names => do
    let (rs, t) ← t.takeRecords names
    some (.count rs.length, { t with batches := t.batches.insert n rs })
  | .batchAdd n name => do
    let rs ← t.batches.get? n
    let (more, t) ← t.takeRecords [name]
    some (.count (rs ++ more).length, { t with batches := t.batches.insert n (rs ++ more) })
  | .lookBatch n => do
    let rs ← t.batches.get? n
    some (.batch (t.store.displayNames rs) (t.store.batchJson rs), t)
  | .sent n => do
    let rs ← t.batches.get? n
    some ({ t with batches := t.batches.insert n [] }.after (releaseRecords rs) fun _ t =>
      (.count 0, t))
  | .discard n release => do
    let rs ← t.batches.get? n
    some ({ t with batches := t.batches.erase n }.after
      (releaseRecords (if release then rs else [])) fun _ t => (.done, t))
  | .send en n => do
    let e ← t.exporters.get? en
    let rs ← t.batches.get? n
    let (sent, e, s) := e.send rs t.store
    let t := { t with store := s, exporters := t.exporters.insert en e }
    let emptied := { t with batches := t.batches.insert n [] }
    match sent with
    | .accepted => some (.count 0, emptied)
    | .refused f => some (.failure f, t)
    | .broken f => some (.fault f, emptied)
  | .exporter en sink policy =>
    some (.text sink.name,
      { t with exporters := t.exporters.insert en { sink := sink, policy := policy } })
  | .lookExporter en => do some (.exporter (← t.exporters.get? en), t)
  | .batcher q limits => some (keepBatcher q (.start limits t.store.now) t)
  | .enqueue q n => do
    let b ← t.batchers.get? q
    let r ← t.records.get? n
    some (keepBatcher q (b.add r) { t with records := t.records.erase n })
  | .enqueueNumbered q n trace count => do
    let b ← t.batchers.get? q
    let p ← t.sets.get? n
    some (t.after (numberedRecords p trace count) fun rs => keepBatcher q (rs.foldl Batcher.add b))
  | .flush q en => do
    let b ← t.batchers.get? q
    let e ← t.exporters.get? en
    let (flushed, b, e, s) := b.flush e t.store
    let t := { t with
      store := s
      batchers := t.batchers.insert q b
      exporters := t.exporters.insert en e }
    match flushed with
    | .done => some (.done, t)
    | .refused f => some (.failure f, t)
    | .broken f => some (.fault f, t)
  | .takeBatch q n => do
    let b ← t.batchers.get? q
    let (batch, b) := b.takeBatch t.store.now
    let t := { t with batchers := t.batchers.insert q b }
    some (.count? (batch.map List.length),
      batch.elim t fun rs => { t with batches := t.batches.insert n rs })
  | .lookBatcher q => do some (showBatcher (← t.batchers.get? q) t)
  | .count q success dropped error => do
    let b ← t.batchers.get? q
    let m := success.elim b.metrics b.metrics.success
    let m := dropped.elim m m.drop
    some (keepBatcher q { b with metrics := if error then m.failure else m } t)
  | .advance ms => some (.done, { t with store := { t.store with now := t.store.now + ms } })
  | _ => none

/-- Carries out a command; the log is that of this command alone.  A command
with an unknown name changes nothing. -/
def step (t : Tracer) (c : Command) : Reply × Tracer :=
  let t := { t with store := { t.store with log := #[] } }
  ((t.performAttribute? c <|> t.performRecord? c) <|> t.performDelivery? c).getD (.unknown, t)

/-- Carries out commands in order. -/
def run (t : Tracer) : List Command → List Reply × Tracer
  | [] => ([], t)
  | c :: cs =>
    let (r, t) := t.step c
    let (rs, t) := t.run cs
    (r :: rs, t)

end Tracer
end Telemetry
