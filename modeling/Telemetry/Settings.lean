/-
# Settings

The set-up of pools, upkeep, request metadata and batching, with the usual
values and those of a small process.
-/

import Telemetry.Pool.Basic
import Telemetry.Pool.Rhythm
import Telemetry.Request.Metadata

namespace Telemetry

/-- When records are flushed, and how many refused batches are kept. -/
structure BatchLimits where
  /-- So many records are worth a flush. -/
  size : Nat := 1000
  /-- After so long a time even one record is. -/
  timeout : Duration := .ofSeconds 5
  /-- So many refused batches are kept. -/
  retryBatches : Nat := 16
  deriving DecidableEq, Inhabited

/-- The settings of a process. -/
structure Settings where
  attributePool : Pool.Config := .standard
  spanPool : Pool.Config := .standard
  upkeep : Pool.Rhythm := .standard
  metadata : Metadata.Limits := .standard
  batch : BatchLimits := {}
  deriving Inhabited

namespace Settings

/-- The usual settings. -/
def standard : Settings := {}

/-- The settings of a small process. -/
def small : Settings := { attributePool := .small, spanPool := .small }

end Settings
end Telemetry
