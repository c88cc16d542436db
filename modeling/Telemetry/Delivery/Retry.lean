/-
# Waiting between attempts

A retry policy says how often an export is tried again and how long to wait
before: the wait grows by a factor from attempt to attempt up to a greatest
one.  The growth is computed in numbers of 64 bits from whole milliseconds; a
result that is no finite number counts as too long.
-/

import Telemetry.Time.Duration

namespace Telemetry

open Numeric

namespace Retry

/-- How failed exports are tried again. -/
structure Policy where
  maxRetries : Nat
  initialDelay : Duration
  maxDelay : Duration
  multiplier : Binary64
  deriving DecidableEq, Inhabited

namespace Policy

/-- The usual policy. -/
def standard : Policy := ⟨3, .ofMilliseconds 100, .ofSeconds 10, .ofNat 2⟩

/-- The greatest exponent that is used. -/
def maxExponent : Nat := 2147483647

/-- The greatest number of milliseconds that is used. -/
def maxMilliseconds : Nat := 18446744073709551615

/-- How often one export is tried; the number has 32 bits. -/
def attempts (p : Policy) : Nat := min (p.maxRetries + 1) 4294967295

/-- The wait before an attempt in milliseconds, before it is bounded. -/
def rawDelay (p : Policy) (attempt : Nat) : Binary64 :=
  (Binary.ofNat p.initialDelay.milliseconds).mul (p.multiplier.pow (min (attempt - 1) maxExponent))

/-- The wait before an attempt; before the first one there is none. -/
def delay (p : Policy) (attempt : Nat) : Duration :=
  if attempt = 0 then ⟨0⟩
  else
    let raw := p.rawDelay attempt
    if !raw.isFinite || (Binary.ofNat p.maxDelay.milliseconds).le raw then p.maxDelay
    else (Duration.ofMilliseconds (raw.truncate maxMilliseconds)).min p.maxDelay

end Policy
end Retry
end Telemetry
