/-
# Batching

A batcher gathers records and sends them in batches.  Refused batches wait in
a queue, the oldest first, and are sent again before anything newer; when the
queue is too long after a refusal, the oldest batches are dropped and their
records released.
-/

import Telemetry.Delivery.Exporter
import Telemetry.Settings

namespace Telemetry

open Trace

/-- What a batcher has done. -/
structure BatchMetrics where
  recordsExported : Nat := 0
  batchesExported : Nat := 0
  exportErrors : Nat := 0
  droppedBatches : Nat := 0
  droppedRecords : Nat := 0
  deriving DecidableEq, Inhabited

namespace BatchMetrics

/-- Counts a batch that was sent. -/
def success (m : BatchMetrics) (records : Nat) : BatchMetrics :=
  { m with
    recordsExported := m.recordsExported + records
    batchesExported := m.batchesExported + 1 }

/-- Counts a failed flush. -/
def failure (m : BatchMetrics) : BatchMetrics := { m with exportErrors := m.exportErrors + 1 }

/-- Counts a batch that was dropped. -/
def drop (m : BatchMetrics) (records : Nat) : BatchMetrics :=
  { m with
    droppedBatches := m.droppedBatches + 1
    droppedRecords := m.droppedRecords + records }

end BatchMetrics

/-- Records on their way out. -/
structure Batcher where
  limits : BatchLimits
  pending : List RecordId := []
  /-- Refused batches, the oldest first. -/
  queue : List (List RecordId) := []
  metrics : BatchMetrics := {}
  /-- When the flush timer was last restarted, by the clock of the store
  (`Store.now`). -/
  lastFlush : Nat

namespace Batcher

/-- A batcher without records. -/
def start (limits : BatchLimits) (now : Nat) : Batcher := { limits := limits, lastFlush := now }

/-- Adds a record. -/
def add (b : Batcher) (r : RecordId) : Batcher := { b with pending := b.pending ++ [r] }

/-- How many records were not sent yet. -/
def totalPending (b : Batcher) : Nat := b.pending.length + b.queue.flatten.length

/-- Whether it is time for a flush: there is something to send, and it is
enough or has waited long enough. -/
def shouldFlush (b : Batcher) (now : Nat) : Bool :=
  0 < b.totalPending &&
    (b.limits.size ≤ b.totalPending ||
      b.limits.timeout.nanoseconds ≤ (Duration.ofMilliseconds (now - b.lastFlush)).nanoseconds)

/-- Forms a batch of the pending records, if there are any, and restarts the
timer then. -/
def takeBatch (b : Batcher) (now : Nat) : Option (List RecordId) × Batcher :=
  if b.pending.isEmpty then (none, b)
  else (some b.pending, { b with pending := [], lastFlush := now })

/-- How a flush ended. -/
inductive Flushed where
  | done
  | refused (reason : ExportFailure)
  | broken (fault : Fault)

/-- Drops so many of the oldest batches. -/
def dropOldest (b : Batcher) (s : Store) : Nat → Option Fault × Batcher × Store
  | 0 => (none, b, s)
  | n + 1 =>
    match b.queue with
    | [] => (none, b, s)
    | oldest :: rest =>
      let b := { b with queue := rest, metrics := b.metrics.drop oldest.length }
      let s := s.report [.batchDropped oldest.length b.limits.retryBatches]
      match releaseRecords oldest s with
      | .ok _ s => dropOldest b s n
      | .error f s => (some f, b, s)

/-- Drops the oldest batches as far as the queue is too long. -/
def trim (b : Batcher) (s : Store) : Option Fault × Batcher × Store :=
  b.dropOldest s (b.queue.length - b.limits.retryBatches)

/-- Sends the batches of a queue in order up to the first one that is
refused. -/
def sendAll (b : Batcher) (e : Exporter) (s : Store) :
    List (List RecordId) → Flushed × Batcher × Exporter × Store
  | [] => (.done, { b with queue := [], lastFlush := s.now }, e, s)
  | batch :: rest =>
    match e.send batch s with
    | (.accepted, e, s) =>
      sendAll { b with metrics := b.metrics.success batch.length } e s rest
    | (.broken f, e, s) => (.broken f, { b with queue := rest }, e, s)
    | (.refused reason, e, s) =>
      let b := { b with queue := batch :: rest, metrics := b.metrics.failure }
      match b.trim s with
      | (none, b, s) => (.refused reason, b, e, s)
      | (some f, b, s) => (.broken f, b, e, s)

/-- Forms a batch of the pending records and sends all batches, the oldest
first. -/
def flush (b : Batcher) (e : Exporter) (s : Store) : Flushed × Batcher × Exporter × Store :=
  let (batch, b) := b.takeBatch s.now
  b.sendAll e s (b.queue ++ batch.toList)

end Batcher
end Telemetry
