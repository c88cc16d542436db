/-
# Exporters

An exporter hands a batch of records to a sink.  A sink that refuses gives a
reason.  With a retry policy a refused batch is offered again, after a wait
that lets the clock go on, until it is accepted or all attempts are used up.
-/

import Telemetry.Delivery.Failure
import Telemetry.Delivery.Retry
import Telemetry.Trace.View

namespace Telemetry

open Trace

/-- Where records go. -/
inductive Sink where
  /-- Accepts everything. -/
  | nowhere
  /-- Reports every record. -/
  | log
  /-- Keeps the last batch. -/
  | file (content : Option Json)
  /-- A file in a directory that is not there. -/
  | missingDirectory
  /-- A directory in place of a file. -/
  | directory
  /-- Refuses as it is told to, and accepts when that is used up; it counts
  the attempts and keeps the names of the accepted spans. -/
  | script (outcomes : List (Option ExportFailure)) (attempts : Nat) (names : List String)

namespace Sink

/-- The name of a sink. -/
def name : Sink → String
  | nowhere => "null"
  | log => "logging"
  | file _ | missingDirectory | directory => "json_file"
  | script .. => "script"

/-- Offers a batch once. -/
def offer (k : Sink) (rs : List RecordId) (s : Store) : Option ExportFailure × Sink × Store :=
  match k with
  | nowhere => (none, nowhere, s)
  | log =>
    let events := rs.map fun r =>
      let record := s.record r
      Event.spanExported record.displayName record.attributeCount record.priority
    (none, log, s.report events)
  | file _ => (none, file (some (s.batchJson rs)), s)
  | missingDirectory =>
    (some (.transport "No such file or directory (os error 2)"), missingDirectory, s)
  | directory => (some (.transport "Is a directory (os error 21)"), directory, s)
  | script [] attempts names => (none, script [] (attempts + 1) (names ++ s.displayNames rs), s)
  | script (none :: rest) attempts names =>
    (none, script rest (attempts + 1) (names ++ s.displayNames rs), s)
  | script (some f :: rest) attempts names => (some f, script rest (attempts + 1) names, s)

end Sink

/-- A sink, a retry policy if there is one, and what came of retrying. -/
structure Exporter where
  sink : Sink
  policy : Option Retry.Policy := none
  /-- How often an attempt was made after a wait. -/
  retries : Nat := 0
  /-- How many exports succeeded after the first attempt. -/
  recovered : Nat := 0

namespace Exporter

/-- The name of an exporter is that of its sink. -/
def name (e : Exporter) : String := e.sink.name

/-- Waits before an attempt, if there is a wait. -/
def await (e : Exporter) (d : Duration) (s : Store) : Exporter × Store :=
  if d.nanoseconds = 0 then (e, s)
  else ({ e with retries := e.retries + 1 }, { s with now := s.now + d.ceilMilliseconds })

/-- Offers a batch from an attempt on, with so many attempts left. -/
def attemptFrom (p : Retry.Policy) (rs : List RecordId) (attempt : Nat) :
    Nat → Exporter → Store → Option ExportFailure × Exporter × Store
  | 0, e, s => (some (.exhausted p.attempts), e, s)
  | left + 1, e, s =>
    let (e, s) := e.await (p.delay attempt) s
    match e.sink.offer rs s with
    | (none, sink, s) =>
      (none, { e with sink := sink, recovered := e.recovered + (if attempt = 0 then 0 else 1) }, s)
    | (some f, sink, s) =>
      attemptFrom p rs (attempt + 1) left { e with sink := sink }
        (s.report [.attemptFailed sink.name attempt f.message])

/-- Exports a batch; the reason if it was not accepted. -/
def exportBatch (e : Exporter) (rs : List RecordId) (s : Store) :
    Option ExportFailure × Exporter × Store :=
  match e.policy with
  | some p => attemptFrom p rs 0 p.attempts e s
  | none =>
    let (failure, sink, s) := e.sink.offer rs s
    (failure, { e with sink := sink }, s)

/-- How sending a batch ended. -/
inductive Sent where
  /-- The batch was accepted and its records were released. -/
  | accepted
  /-- The batch was refused and is unchanged. -/
  | refused (reason : ExportFailure)
  /-- The batch was accepted, but releasing a record was broken off. -/
  | broken (fault : Fault)

/-- Sends a batch: its records are released when it is accepted, and kept when
it is refused. -/
def send (e : Exporter) (rs : List RecordId) (s : Store) : Sent × Exporter × Store :=
  match e.exportBatch rs s with
  | (none, e, s) =>
    match releaseRecords rs s with
    | .ok _ s => (.accepted, e, s)
    | .error f s => (.broken f, e, s)
  | (some f, e, s) =>
    (.refused f, e, s.report [.batchKept e.name rs.length f.message])

end Exporter
end Telemetry
