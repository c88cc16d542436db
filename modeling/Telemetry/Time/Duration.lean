/-
# Durations

A span of time is a whole number of nanoseconds.
-/

import Telemetry.Numeric.Binary

namespace Telemetry

open Numeric

/-- A span of time. -/
structure Duration where
  nanoseconds : Nat
  deriving DecidableEq, Inhabited

namespace Duration

/-- Nanoseconds in a second. -/
def perSecond : Nat := 1000000000

/-- Nanoseconds in a millisecond. -/
def perMillisecond : Nat := 1000000

/-- A span of whole seconds and nanoseconds. -/
def ofParts (seconds nanoseconds : Nat) : Duration := ⟨seconds * perSecond + nanoseconds⟩

/-- A span of whole seconds. -/
def ofSeconds (n : Nat) : Duration := ⟨n * perSecond⟩

/-- A span of whole milliseconds. -/
def ofMilliseconds (n : Nat) : Duration := ⟨n * perMillisecond⟩

/-- The whole seconds. -/
def seconds (d : Duration) : Nat := d.nanoseconds / perSecond

/-- The nanoseconds past the last whole second. -/
def subsecond (d : Duration) : Nat := d.nanoseconds % perSecond

/-- The whole milliseconds. -/
def milliseconds (d : Duration) : Nat := d.nanoseconds / perMillisecond

/-- The least number of milliseconds that is not shorter. -/
def ceilMilliseconds (d : Duration) : Nat :=
  (d.nanoseconds + (perMillisecond - 1)) / perMillisecond

/-- The shorter of two spans. -/
def min (a b : Duration) : Duration := ⟨Nat.min a.nanoseconds b.nanoseconds⟩

/-- The span in seconds: seconds and nanoseconds are rounded apart, and so is
their sum. -/
def toBinary64 (d : Duration) : Binary64 :=
  (Binary.ofNat d.seconds).add ((Binary.ofNat d.subsecond).div (.ofNat perSecond))

end Duration
end Telemetry
