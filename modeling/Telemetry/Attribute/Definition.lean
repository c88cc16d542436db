/-
# Attribute definitions

A definition names an attribute and says in which of three categories a span
carries it.  Two names are special in every category: their values identify
the span.
-/

namespace Telemetry

/-- The three categories of attributes. -/
inductive Category where
  | intrinsic
  | agent
  | user
  deriving DecidableEq, Inhabited

namespace Category

/-- The categories in the order in which a span lists them. -/
def all : List Category := [intrinsic, agent, user]

/-- The place of a category in that order. -/
def position : Category → Nat
  | intrinsic => 0
  | agent => 1
  | user => 2

/-- The name of a category in every output. -/
def label : Category → String
  | intrinsic => "intrinsics"
  | agent => "agentAttributes"
  | user => "userAttributes"

end Category

/-- What an attribute is called and where it belongs. -/
structure Definition where
  name : String
  category : Category
  /-- A cached attribute keeps its slot when nobody refers to it any more. -/
  cached : Bool := false
  deriving DecidableEq, Inhabited

namespace Definition

/-- The name under which a span finds its trace. -/
def traceIdName : String := "traceId"

/-- The name under which a span finds itself. -/
def guidName : String := "guid"

/-- The definition of the trace identity. -/
def traceId : Definition := { name := traceIdName, category := .intrinsic }

/-- The definition of the span identity. -/
def guid : Definition := { name := guidName, category := .intrinsic }

end Definition
end Telemetry
