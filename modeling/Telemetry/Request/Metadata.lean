/-
# Request metadata

What is recorded about a request while it runs.  Most entries keep their last
write.  User attributes are limited in number, and once the limit is reached
even an attribute that is there cannot be written any more.  The sampling
decision is made once.
-/

import Telemetry.Attribute.Value
import Telemetry.Event
import Telemetry.Request.ErrorReport
import Telemetry.Request.Sampler
import Telemetry.Request.Transport

namespace Telemetry

open Numeric

namespace Metadata

/-- The texts of a request that keep their last write. -/
inductive TextField where
  | uri
  | initialUri
  | referrerUri
  | referrerPathHash
  | referrerProcessId
  | referrerTripId
  | referrerTransactionGuid
  | pathHash
  | traceType
  | traceAppId
  | traceAccountId
  | traceGuid
  | traceId
  | traceTrustKey
  | traceTransactionId
  | syntheticsResourceId
  | syntheticsJobId
  | syntheticsMonitorId
  deriving DecidableEq, Inhabited

/-- The bounds on what a request keeps. -/
structure Limits where
  userAttributes : Nat
  alternatePathHashes : Nat
  deriving DecidableEq, Inhabited

/-- The usual bounds. -/
def Limits.standard : Limits := ⟨64, 10⟩

/-- The number that stands for a status that was not set. -/
def absentStatus : Int := -2147483648

/-- A status as it can be read back; the number for an absent one is read as
absent. -/
def presentStatus (code : Int) : Option Int := if code = absentStatus then none else some code

/-- The longest span that is recorded, in nanoseconds. -/
def longestSpan : Nat := 18446744073709551614

/-- A span as it is recorded. -/
def recordedSpan (d : Duration) : Duration := ⟨Nat.min d.nanoseconds longestSpan⟩

end Metadata

/-- The metadata of a request. -/
structure Metadata where
  limits : Metadata.Limits := .standard
  texts : Metadata.TextField → Option String := fun _ => none
  /-- All path hashes of the request, each one once. -/
  pathHashes : List String := []
  transport : Option String := none
  queueTime : Option Duration := none
  transportDuration : Duration := ⟨0⟩
  requestParameters : Keyed String := .empty
  userAttributes : Keyed Value := .empty
  /-- How many user attributes were admitted. -/
  admitted : Nat := 0
  userErrorAttributes : Keyed Value := .empty
  status : Option Int := none
  subStatus : Option Int := none
  exceptions : List ErrorReport := []
  customErrors : List ErrorReport := []
  contentLength : Int := -1
  responseTime : Binary32 := .zero false
  responseHeaders : Bool := false
  outgoingPayload : Bool := false
  incomingPayload : Bool := false
  sampled : Option Bool := none
  priority : Binary32 := .zero false

namespace Metadata

/-- Writes a text; a path hash also joins the hashes of the request. -/
def setText (m : Metadata) (f : TextField) (s : String) : Metadata :=
  let m := { m with texts := fun g => if g = f then some s else m.texts g }
  if f = .pathHash ∧ s ∉ m.pathHashes then { m with pathHashes := m.pathHashes ++ [s] } else m

/-- Records how long the request was queued. -/
def setQueueTime (m : Metadata) (d : Duration) : Metadata :=
  { m with queueTime := some (recordedSpan d) }

/-- Records how long the transport took. -/
def setTransportDuration (m : Metadata) (d : Duration) : Metadata :=
  { m with transportDuration := recordedSpan d }

/-- Records the transport by its code. -/
def setTransport (m : Metadata) (code : Int) : Metadata :=
  { m with transport := some (Transport.ofCode code).name }

/-- Records a parameter of the request. -/
def addParameter (m : Metadata) (key value : String) : Metadata :=
  { m with requestParameters := m.requestParameters.insert key value }

/-- Records a user attribute, if the limit admits it. -/
def addUserAttribute (m : Metadata) (key : String) (v : Value) : Bool × List Event × Metadata :=
  if m.limits.userAttributes ≤ m.admitted then
    (false, [.attributeDiscarded key m.limits.userAttributes], m)
  else
    (true, [], { m with
      admitted := if m.userAttributes.contains key then m.admitted else m.admitted + 1
      userAttributes := m.userAttributes.insert key v })

/-- Records an attribute of the errors. -/
def addUserErrorAttribute (m : Metadata) (key : String) (v : Value) : Metadata :=
  { m with userErrorAttributes := m.userErrorAttributes.insert key v }

/-- Records the status of the response. -/
def setStatus (m : Metadata) (code : Int) (sub : Option Int) : Metadata :=
  { m with status := presentStatus code, subStatus := sub.bind presentStatus }

/-- Records an exception. -/
def addException (m : Metadata) (e : ErrorReport) : Metadata :=
  { m with exceptions := m.exceptions ++ [e] }

/-- Records an error that the user reported. -/
def addCustomError (m : Metadata) (e : ErrorReport) : Metadata :=
  { m with customErrors := m.customErrors ++ [e] }

/-- How many errors were recorded. -/
def errorCount (m : Metadata) : Nat := m.exceptions.length + m.customErrors.length

/-- Puts a sampling decision in force unless there is one, and tells which one
is in force then. -/
def setSampledFlag (m : Metadata) (b : Bool) : Bool × Metadata :=
  let decision := m.sampled.getD b
  (decision, { m with sampled := some decision })

/-- Carries out a consultation to its end.  What it did before it broke off
remains done. -/
def consult (m : Metadata) : Consultation → Consultation.Ending × Metadata
  | .decide b p => (.decided b p, m)
  | .look next => m.consult (next m.sampled)
  | .mark b next =>
    let (decision, m) := m.setSampledFlag b
    m.consult (next decision)
  | .prioritize p next => { m with priority := p }.consult next
  | .fail => (.brokenOff, m)

/-- What comes of letting a sampler decide. -/
structure Verdict where
  /-- The decision that is returned, unless the call is broken off. -/
  decision : Option Bool
  /-- How the consultation ended, if the sampler was consulted. -/
  consultation : Option Consultation.Ending := none

/-- Lets a sampler decide unless there is a decision.  One that came up while
the sampler ran wins, and then the sampler's priority is not taken over
either.  A sampler that breaks off leaves the request undecided unless it put a
decision in force before, so another one can be consulted later. -/
def setSampled (m : Metadata) (s : Sampler) : Verdict × Metadata :=
  match m.sampled with
  | some b => ({ decision := some b }, m)
  | none =>
    match m.consult (s m.priority) with
    | (.brokenOff, m) => ({ decision := none, consultation := some .brokenOff }, m)
    | (.decided b p, m) =>
      match m.sampled with
      | some d => ({ decision := some d, consultation := some (.decided b p) }, m)
      | none =>
        ({ decision := some b, consultation := some (.decided b p) },
          { m with sampled := some b, priority := p })

/-- Whether the request takes part in a distributed trace. -/
def isParticipant (m : Metadata) : Bool := (m.texts .traceGuid).isSome

/-- Whether a text was written and is not empty. -/
def hasText (m : Metadata) (f : TextField) : Bool := (m.texts f).any (· ≠ "")

/-- Whether the request comes from a synthetic monitor. -/
def isSynthetic (m : Metadata) : Bool :=
  m.hasText .syntheticsResourceId && m.hasText .syntheticsJobId && m.hasText .syntheticsMonitorId

/-- The path hashes other than the latest one. -/
def otherPathHashes (m : Metadata) : List String :=
  m.pathHashes.filter fun h => m.texts .pathHash != some h

end Metadata
end Telemetry
