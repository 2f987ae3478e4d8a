import RulesText.Format.Record
import RulesText.Json.Value

/-!
# How abilities are rendered

Three switches. The default is the canonical wording, and each switch only drops or reshapes a
part of it.
-/

namespace RulesText.Describe
open Format Json

/-- What is rendered. -/
structure Config where
  /-- Whether caps on use are mentioned. -/
  usageLimits : Bool := true
  /-- Whether the conditions of effects are mentioned. -/
  conditions : Bool := true
  /-- Whether the text begins with a capital. -/
  capitalize : Bool := false
  deriving DecidableEq, Repr, Inhabited

namespace Config

/-- The canonical wording. -/
def canonical : Config := {}

/-- The members of a configuration, all of which are required. -/
def shape : Shape Config :=
  Config.mk <$> .required "usage_limits" boolean <*> .required "conditions" boolean
    <*> .required "capitalize" boolean

/-- Configurations pass over members that they do not know. -/
def record : Record Config := ⟨"struct DescribeConfig", true, shape⟩

/-- Reads a configuration. -/
def read : Reader Config := record.read

/-- The written form. -/
def toJson (config : Config) : Json :=
  .object [("usage_limits", .bool config.usageLimits), ("conditions", .bool config.conditions),
    ("capitalize", .bool config.capitalize)]

end Config

end RulesText.Describe
