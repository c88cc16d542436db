/-
# Snapshots

A snapshot is what is reported of a request's metadata at a moment.
-/

import Telemetry.Request.Metadata

namespace Telemetry

open Numeric

/-- The reported state of a request. -/
structure Snapshot where
  texts : Metadata.TextField → Option String
  /-- Earlier path hashes, as many as the limits admit. -/
  alternates : List String
  transport : Option String
  queueTime : Option Duration
  transportDuration : Duration
  requestParameters : Keyed String
  userAttributes : Keyed Value
  userErrorAttributes : Keyed Value
  status : Option Int
  subStatus : Option Int
  exceptions : List ErrorReport
  customErrors : List ErrorReport
  contentLength : Int
  responseTime : Binary32
  sampled : Bool
  outgoingPayload : Bool
  incomingPayload : Bool
  isSynthetic : Bool
  responseHeaders : Bool
  priority : Binary32

/-- The snapshot of a request; an open sampling decision is reported as
negative. -/
def Metadata.freeze (m : Metadata) : Snapshot where
  texts := m.texts
  alternates := m.otherPathHashes.take m.limits.alternatePathHashes
  transport := m.transport
  queueTime := m.queueTime
  transportDuration := m.transportDuration
  requestParameters := m.requestParameters
  userAttributes := m.userAttributes
  userErrorAttributes := m.userErrorAttributes
  status := m.status
  subStatus := m.subStatus
  exceptions := m.exceptions
  customErrors := m.customErrors
  contentLength := m.contentLength
  responseTime := m.responseTime
  sampled := m.sampled.getD false
  outgoingPayload := m.outgoingPayload
  incomingPayload := m.incomingPayload
  isSynthetic := m.isSynthetic
  responseHeaders := m.responseHeaders
  priority := m.priority

namespace Snapshot

open Metadata (TextField)

/-- The names under which texts are reported. -/
def textNames : List (String × TextField) :=
  [("uri", .uri), ("originalUri", .initialUri), ("referrerUri", .referrerUri),
    ("crossApplicationReferrerPathHash", .referrerPathHash),
    ("latestCrossApplicationPathHash", .pathHash),
    ("crossApplicationReferrerTransactionGuid", .referrerTransactionGuid),
    ("crossApplicationReferrerProcessId", .referrerProcessId),
    ("crossApplicationReferrerTripId", .referrerTripId),
    ("distributedTraceType", .traceType), ("distributedTraceAppId", .traceAppId),
    ("distributedTraceAccountId", .traceAccountId), ("distributedTraceGuid", .traceGuid),
    ("distributedTraceTraceId", .traceId), ("distributedTraceTrustKey", .traceTrustKey),
    ("distributedTraceTransactionId", .traceTransactionId),
    ("syntheticsResourceId", .syntheticsResourceId), ("syntheticsJobId", .syntheticsJobId),
    ("syntheticsMonitorId", .syntheticsMonitorId)]

/-- All errors, the exceptions first. -/
def allErrors (s : Snapshot) : List ErrorReport := s.exceptions ++ s.customErrors

/-- Whether the request took part in a distributed trace. -/
def isParticipant (s : Snapshot) : Bool := (s.texts .traceGuid).isSome

/-- A span of time as JSON. -/
def spanJson (d : Duration) : Json :=
  .object [("secs", .int d.seconds), ("nanos", .int d.subsecond)]

/-- A snapshot as JSON. -/
def toJson (s : Snapshot) : Json :=
  .object ((textNames.map fun (n, f) => (n, Json.ofText? (s.texts f))) ++
    [("queueTime", .ofOption spanJson s.queueTime),
      ("requestParameters", s.requestParameters.toJson .text),
      ("userAttributes", s.userAttributes.toJson Value.toJson),
      ("userErrorAttributes", s.userErrorAttributes.toJson Value.toJson),
      ("httpResponseStatusCode", .ofOption .int s.status),
      ("httpResponseSubStatusCode", .ofOption .int s.subStatus),
      ("transactionExceptionDatas", .list (s.exceptions.map ErrorReport.toJson)),
      ("customErrorDatas", .list (s.customErrors.map ErrorReport.toJson)),
      ("alternateCrossApplicationPathHashes", .list (s.alternates.map .text)),
      ("crossApplicationReferrerContentLength", .int s.contentLength),
      ("crossApplicationResponseTimeInSeconds", .single s.responseTime),
      ("distributedTraceTransportType", .ofText? s.transport),
      ("distributedTraceTransportDuration", spanJson s.transportDuration),
      ("distributedTraceSampled", .bool s.sampled),
      ("hasOutgoingDistributedTracePayload", .bool s.outgoingPayload),
      ("hasIncomingDistributedTracePayload", .bool s.incomingPayload),
      ("isSynthetics", .bool s.isSynthetic),
      ("hasCatResponseHeaders", .bool s.responseHeaders),
      ("priority", .single s.priority)])

/-- Equality of lists of error reports. -/
def sameErrors : List ErrorReport → List ErrorReport → Bool
  | [], [] => true
  | a :: as, b :: bs => a.equals b && sameErrors as bs
  | _, _ => false

/-- Equality of snapshots; numbers are compared numerically, so a snapshot
with a `nan` differs from itself. -/
def equals (a b : Snapshot) : Bool :=
  (textNames.all fun (_, f) => a.texts f == b.texts f) && a.alternates == b.alternates &&
    a.transport == b.transport && a.queueTime == b.queueTime &&
    a.transportDuration == b.transportDuration &&
    a.requestParameters.equalsBy (· == ·) b.requestParameters &&
    a.userAttributes.equalsBy Value.equals b.userAttributes &&
    a.userErrorAttributes.equalsBy Value.equals b.userErrorAttributes &&
    a.status == b.status && a.subStatus == b.subStatus &&
    sameErrors a.exceptions b.exceptions && sameErrors a.customErrors b.customErrors &&
    a.contentLength == b.contentLength && a.responseTime.equals b.responseTime &&
    a.sampled == b.sampled && a.outgoingPayload == b.outgoingPayload &&
    a.incomingPayload == b.incomingPayload && a.isSynthetic == b.isSynthetic &&
    a.responseHeaders == b.responseHeaders && a.priority.equals b.priority

end Snapshot
end Telemetry
