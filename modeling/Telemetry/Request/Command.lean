/-
# Working with a request

The commands record something about one request or take and compare snapshots
of it; each one has an answer, which for most of them is what can be read back
afterwards.
-/

import Telemetry.Request.Snapshot

namespace Telemetry
namespace Request

open Numeric

/-- What a sampler with a script does: it may set the priority of the request,
put a decision in force, replace its own priority and add to it. -/
structure Script where
  decision : Bool
  priority : Option Binary32 := none
  flag : Option Bool := none
  assign : Option Binary32 := none
  add : Option Binary32 := none

/-- The sampler of a script. -/
def Script.sampler (s : Script) : Sampler := fun p =>
  let p := s.assign.getD p
  let p := s.add.elim p p.add
  let decide := Consultation.decide s.decision p
  let mark := s.flag.elim decide fun b => .mark b fun _ => decide
  s.priority.elim mark fun q => .prioritize q mark

/-- What can be asked of a request. -/
inductive Command where
  | text (field : Metadata.TextField) (value : String)
  | queueTime (d : Duration)
  | transportDuration (d : Duration)
  | transport (code : Int)
  | parameter (key value : String)
  | userAttribute (key : String) (v : Value)
  /-- Adds the attributes `stem0`, `stem1`, ..., whose values are their
  numbers. -/
  | userAttributes (stem : String) (n : Nat)
  | userErrorAttribute (key : String) (v : Value)
  | status (code : Int) (sub : Option Int)
  | exception (e : ErrorReport)
  | customError (e : ErrorReport)
  | contentLength (n : Int)
  | responseTime (x : Binary32)
  | responseHeaders
  | outgoingPayload (b : Bool)
  | incomingPayload (b : Bool)
  | priority (x : Binary32)
  | sampledFlag (b : Bool)
  | sampleConstant (b : Bool)
  | sampleScript (s : Script)
  | look
  | freeze (name : String)
  | snapshot (name : String)
  | compare (name other : String)

/-- The earlier path hashes of a snapshot as far as they are determined: which
ones of too many are kept is not. -/
inductive Alternates where
  /-- All of them, in increasing order. -/
  | all (hashes : List String)
  /-- As many as the limits admit: their number, whether they are distinct,
  whether they were all recorded, and whether the latest hash is among them. -/
  | some (count : Nat) (distinct recorded latest : Bool)

/-- What a request answers. -/
inductive Reply where
  | text? (s : Option String)
  | span? (d : Option Duration)
  | count (n : Nat)
  | flag (b : Bool)
  | admitted (b : Bool) (count : Nat)
  | admittedCount (admitted count : Nat)
  | status (code sub : Option Int)
  | lengths (previous now : Int)
  | times (previous now : Binary32)
  | single (x : Binary32)
  /-- A sampling decision with the priority and the decision afterwards. -/
  | sampled (result : Option Bool) (priority : Binary32) (flag : Option Bool)
  /-- The same, and what the sampler met if it was consulted. -/
  | consulted (result : Option Bool) (priority : Binary32) (flag : Option Bool)
      (met : Option (Binary32 × Option Bool))
  | whole (m : Metadata)
  | snapshot (s : Snapshot) (alternates : Alternates)
  | same (b : Bool)
  | unknown

end Request

/-- A request and the snapshots taken of it. -/
structure Request where
  metadata : Metadata := {}
  /-- Snapshots with the metadata they were taken of. -/
  snapshots : Keyed (Snapshot × Metadata) := .empty

namespace Request

/-- The earlier path hashes of a snapshot, compared with the metadata it was
taken of. -/
def alternates (s : Snapshot) (m : Metadata) : Alternates :=
  if s.alternates.length < m.limits.alternatePathHashes then
    .all (s.alternates.mergeSort fun a b => a ≤ b)
  else
    .some s.alternates.length (decide s.alternates.Nodup)
      (s.alternates.all fun h => m.pathHashes.contains h)
      (s.alternates.any fun h => s.texts .pathHash == some h)

/-- The attributes `stem0`, `stem1`, ... up to a number, in order. -/
def addNumbered (m : Metadata) (stem : String) : Nat → Nat × List Event × Metadata
  | 0 => (0, [], m)
  | n + 1 =>
    let (count, events, m) := addNumbered m stem n
    let (admitted, more, m) := m.addUserAttribute (stem ++ toString n) (.ofNat n)
    (count + (if admitted then 1 else 0), events ++ more, m)

/-- The request with other metadata. -/
def withMetadata (r : Request) (m : Metadata) : Request := { r with metadata := m }

/-- Carries out a command: the answer, the events and the request
afterwards. -/
def step (r : Request) (c : Command) : Reply × List Event × Request :=
  let m := r.metadata
  match c with
  | .text f s =>
    let m := m.setText f s
    (.text? (m.texts f), [], r.withMetadata m)
  | .queueTime d =>
    let m := m.setQueueTime d
    (.span? m.queueTime, [], r.withMetadata m)
  | .transportDuration d =>
    let m := m.setTransportDuration d
    (.span? m.transportDuration, [], r.withMetadata m)
  | .transport code =>
    let m := m.setTransport code
    (.text? m.transport, [], r.withMetadata m)
  | .parameter k v =>
    let m := m.addParameter k v
    (.count m.requestParameters.size, [], r.withMetadata m)
  | .userAttribute k v =>
    let (admitted, events, m) := m.addUserAttribute k v
    (.admitted admitted m.userAttributes.size, events, r.withMetadata m)
  | .userAttributes stem n =>
    let (admitted, events, m) := addNumbered m stem n
    (.admittedCount admitted m.userAttributes.size, events, r.withMetadata m)
  | .userErrorAttribute k v =>
    let m := m.addUserErrorAttribute k v
    (.count m.userErrorAttributes.size, [], r.withMetadata m)
  | .status code sub =>
    let m := m.setStatus code sub
    (.status m.status m.subStatus, [], r.withMetadata m)
  | .exception e =>
    let m := m.addException e
    (.count m.errorCount, [], r.withMetadata m)
  | .customError e =>
    let m := m.addCustomError e
    (.count m.errorCount, [], r.withMetadata m)
  | .contentLength n =>
    (.lengths m.contentLength n, [], r.withMetadata { m with contentLength := n })
  | .responseTime x => (.times m.responseTime x, [], r.withMetadata { m with responseTime := x })
  | .responseHeaders => (.flag true, [], r.withMetadata { m with responseHeaders := true })
  | .outgoingPayload b => (.flag b, [], r.withMetadata { m with outgoingPayload := b })
  | .incomingPayload b => (.flag b, [], r.withMetadata { m with incomingPayload := b })
  | .priority x => (.single x, [], r.withMetadata { m with priority := x })
  | .sampledFlag b =>
    let (decision, m) := m.setSampledFlag b
    (.flag decision, [], r.withMetadata m)
  | .sampleConstant b =>
    let (v, m) := m.setSampled (Sampler.constant b)
    (.sampled v.decision m.priority m.sampled, [], r.withMetadata m)
  | .sampleScript s =>
    let (v, after) := m.setSampled s.sampler
    (.consulted v.decision after.priority after.sampled
      (v.consultation.map fun _ => (m.priority, m.sampled)), [], r.withMetadata after)
  | .look => (.whole m, [], r)
  | .freeze n =>
    let s := m.freeze
    (.snapshot s (alternates s m), [], { r with snapshots := r.snapshots.insert n (s, m) })
  | .snapshot n =>
    match r.snapshots.get? n with
    | some (s, m) => (.snapshot s (alternates s m), [], r)
    | none => (.unknown, [], r)
  | .compare a b =>
    match r.snapshots.get? a, r.snapshots.get? b with
    | some (s, _), some (t, _) => (.same (s.equals t), [], r)
    | _, _ => (.unknown, [], r)

/-- Carries out commands in order. -/
def run (r : Request) : List Command → List (Reply × List Event) × Request
  | [] => ([], r)
  | c :: cs =>
    let (reply, events, r) := r.step c
    let (rest, r) := r.run cs
    ((reply, events) :: rest, r)

end Request
end Telemetry
