/-
# Failed exports

Why an export failed.
-/

namespace Telemetry

/-- The reasons for which an export fails. -/
inductive ExportFailure where
  /-- The batch did not reach its destination. -/
  | transport (detail : String)
  /-- The batch could not be written down. -/
  | serialization (detail : String)
  /-- All of so many attempts failed. -/
  | exhausted (attempts : Nat)
  | timeout
  deriving DecidableEq, Inhabited

namespace ExportFailure

/-- The text of a failure. -/
def message : ExportFailure → String
  | transport s => "transport error: " ++ s
  | serialization s => "serialization error: " ++ s
  | exhausted n => "all retry attempts exhausted after " ++ toString n ++ " tries"
  | timeout => "export operation timed out"

end ExportFailure
end Telemetry
