/-
# The rhythm of upkeep

Deadlines lie on a grid: the first one, and from there one interval after the
other.  A deadline is served at the first whole millisecond that is not before
it.  Service that comes more than five milliseconds late leaves out the
deadlines that have passed meanwhile and goes on at the next grid point.
-/

import Telemetry.Time.Duration

namespace Telemetry
namespace Pool

/-- When pools are to be kept up. -/
structure Rhythm where
  first : Duration
  interval : Duration
  deriving DecidableEq, Inhabited

/-- The usual rhythm. -/
def Rhythm.standard : Rhythm := ⟨.ofSeconds 5, .ofSeconds 30⟩

/-- How late, in nanoseconds, a deadline may be served without leaving out
others. -/
def lateness : Nat := 5 * Duration.perMillisecond

/-- The moment, in nanoseconds, at which a deadline is served. -/
def wakeTime (deadline : Nat) : Nat :=
  Duration.ceilMilliseconds ⟨deadline⟩ * Duration.perMillisecond

/-- The deadline after one that is served now. -/
def nextDeadline (interval deadline now : Nat) : Nat :=
  if deadline + lateness < now then now + interval - (now - deadline) % interval
  else deadline + interval

end Pool
end Telemetry
