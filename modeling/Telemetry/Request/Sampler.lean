/-
# Samplers

A sampler decides whether a transaction is sampled and may adjust its
priority.  While it runs it may read the decision in force, put a decision in
force itself and set the priority of the request; such a consultation is a
finite program of these steps.  It ends in a decision, or it is broken off and
the call that consulted the sampler with it.
-/

import Telemetry.Numeric.Binary

namespace Telemetry

open Numeric

/-- What a sampler does from a moment on. -/
inductive Consultation where
  /-- The decision, and the priority that goes with it. -/
  | decide (sampled : Bool) (priority : Binary32)
  /-- Goes on with the decision in force. -/
  | look (next : Option Bool → Consultation)
  /-- Puts a decision in force unless there is one, and goes on with the one
  that is in force then. -/
  | mark (sampled : Bool) (next : Bool → Consultation)
  /-- Sets the priority of the request. -/
  | prioritize (priority : Binary32) (next : Consultation)
  /-- Breaks off without a decision. -/
  | fail

/-- How a consultation ends. -/
inductive Consultation.Ending where
  | decided (sampled : Bool) (priority : Binary32)
  | brokenOff
  deriving DecidableEq

/-- A sampler is handed a copy of the priority.  It does not let another sampler
decide, for it would wait for its own end then. -/
abbrev Sampler := Binary32 → Consultation

namespace Sampler

/-- What the decision to sample adds to the priority. -/
def boost : Binary32 := .ofNat 1

/-- The outcome of a sampler that always decides alike. -/
def constantOutcome (sampled : Bool) (priority : Binary32) : Bool × Binary32 :=
  (sampled, if sampled then priority.add boost else priority)

/-- A sampler that always decides alike. -/
def constant (sampled : Bool) : Sampler := fun p =>
  .decide sampled (constantOutcome sampled p).2

/-- The decisions of constant samplers that pass one priority on. -/
def chain (priority : Binary32) : List Bool → List (Bool × Binary32)
  | [] => []
  | b :: rest =>
    let r := constantOutcome b priority
    r :: chain r.2 rest

end Sampler
end Telemetry
