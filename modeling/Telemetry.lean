import Telemetry.Attribute.Reader
import Telemetry.Depot.Command
import Telemetry.Request.Command
import Telemetry.Tracer.Command
import Telemetry.Proofs.Batching
import Telemetry.Proofs.Session
import Telemetry.Proofs.Rules
import Telemetry.Proofs.Courses
import Telemetry.Proofs.Ownership
import Telemetry.Proofs.Accounts
import Telemetry.Proofs.Stale
import Telemetry.Proofs.Misuse
import Telemetry.Proofs.Rounding
import Telemetry.Proofs.Limits
import Telemetry.Proofs.Calls
import Telemetry.Proofs.Sampling
import Telemetry.Proofs.Snapshots
import Telemetry.Proofs.Clamp
import Telemetry.Proofs.Rounds
import Telemetry.Proofs.Schedule
import Telemetry.Proofs.Upkeep
import Telemetry.Proofs.Settling
import Telemetry.Proofs.Identity
import Telemetry.Proofs.Retrying
import Telemetry.Proofs.Lasting
import Telemetry.Proofs.Once
import Telemetry.Proofs.Timer
import Telemetry.Proofs.Removal
import Telemetry.Proofs.Reclaim
import Telemetry.Proofs.Failing
import Telemetry.Proofs.Leases
import Telemetry.Proofs.Copies
import Telemetry.Proofs.Cycles
import Telemetry.Proofs.Smoothing
import Telemetry.Proofs.Chronology
import Telemetry.Proofs.Kinds
import Telemetry.Proofs.Absence
