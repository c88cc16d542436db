/-
# Log events

What an operation reports besides its answer.  An event is written on one
line: its level and message, then its fields in the order of their names.
-/

import Telemetry.Numeric.Binary
import Telemetry.Text.Quoted

namespace Telemetry

open Numeric

/-- A reported event. -/
inductive Event where
  /-- A pool had no room for an item. -/
  | itemOverflow (capacity : Nat)
  /-- A window of a pool was closed. -/
  | windowClosed (takes misses returns overflow reclaimed oldCapacity newCapacity : Nat)
  /-- Upkeep of so many pools began. -/
  | upkeepStarted (pools : Nat)
  /-- Upkeep ended after so many ticks. -/
  | upkeepStopped (ticks : Nat)
  /-- A user attribute was over the limit. -/
  | attributeDiscarded (key : String) (limit : Nat)
  /-- A pool refused a released attribute slot. -/
  | slotRejected (reason : String)
  /-- A pool refused a released span record. -/
  | recordRejected (reason : String)
  /-- A span was exported to the log. -/
  | spanExported (span : String) (attributes : Nat) (priority : Binary32)
  /-- A batch could not be sent. -/
  | batchKept (exporter : String) (records : Nat) (reason : String)
  /-- An attempt to export failed. -/
  | attemptFailed (exporter : String) (attempt : Nat) (reason : String)
  /-- A batch fell out of the queue of batches to be sent again. -/
  | batchDropped (records limit : Nat)
  deriving DecidableEq

namespace Event

/-- The bits of a number as sixteen digits; all numbers that are none are
written alike. -/
def doubleField (x : Binary64) : String :=
  if x = .nan then "nan" else String.ofList (Text.hex 16 x.toBits)

/-- The level of an event. -/
def level : Event → String
  | itemOverflow _ => "TRACE"
  | windowClosed .. | upkeepStarted _ | upkeepStopped _ => "DEBUG"
  | attributeDiscarded .. | attemptFailed .. => "DEBUG"
  | spanExported .. => "INFO"
  | slotRejected _ | recordRejected _ | batchKept .. | batchDropped .. => "WARN"

/-- The message of an event. -/
def message : Event → String
  | itemOverflow _ => "pool overflow, item dropped"
  | windowClosed .. => "object pool stats"
  | upkeepStarted _ => "pool maintenance started"
  | upkeepStopped _ => "pool maintenance stopped"
  | attributeDiscarded .. => "user attribute discarded, limit reached"
  | slotRejected _ => "attribute slot rejected by its pool"
  | recordRejected _ => "span record rejected by its pool"
  | spanExported .. => "export span"
  | batchKept .. => "span batch export failed, batch kept for retry"
  | attemptFailed .. => "export attempt failed"
  | batchDropped .. => "retry queue full, dropping oldest span batch"

/-- The fields of an event, by name. -/
def fields : Event → List (String × String)
  | itemOverflow capacity => [("capacity", toString capacity)]
  | windowClosed takes misses returns overflow reclaimed old new =>
    [("misses", toString misses), ("new_capacity", toString new), ("old_capacity", toString old),
      ("overflow", toString overflow), ("reclaimed", toString reclaimed),
      ("returns", toString returns), ("takes", toString takes)]
  | upkeepStarted pools => [("pools", toString pools)]
  | upkeepStopped ticks => [("ticks", toString ticks)]
  | attributeDiscarded key limit => [("key", key), ("limit", toString limit)]
  | slotRejected reason | recordRejected reason => [("error", reason)]
  | spanExported span attributes priority =>
    [("attributes", toString attributes), ("priority", doubleField priority.convert),
      ("span", span)]
  | batchKept exporter records reason =>
    [("error", reason), ("exporter", exporter), ("records", toString records)]
  | attemptFailed exporter attempt reason =>
    [("attempt", toString attempt), ("error", reason), ("exporter", exporter)]
  | batchDropped records limit => [("limit", toString limit), ("records", toString records)]

/-- The line of an event. -/
def line (e : Event) : String :=
  "|".intercalate ((e.level ++ " " ++ e.message) :: e.fields.map fun (k, v) => k ++ "=" ++ v)

end Event
end Telemetry
