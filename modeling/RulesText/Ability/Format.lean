import RulesText.Ability.Basic
import RulesText.Effect.Format

/-!
# The written form of abilities

An ability is an object in which only the name is required. Members that it does not know are
passed over.
-/

namespace RulesText
open Format Json

namespace Ability

/-- The members of an ability. -/
def shape : Shape Ability :=
  Ability.mk <$> .required "name" string <*> .defaulted "description" string ""
    <*> .optional "trigger" Trigger.read <*> .optional "cost" Cost.read
    <*> .defaulted "effects" (list Effect.read) [] <*> .optional "maxUsesPerTurn" uint32
    <*> .optional "maxUsesPerGame" uint32

/-- Abilities pass over members that they do not know. -/
def record : Record Ability := ⟨"struct StructuredAbility", true, shape⟩

/-- Reads an ability. -/
def read : Reader Ability := record.read

/-- The written form. The description and the effects are always written. -/
def toJson (ability : Ability) : Json :=
  .object ([("name", .string ability.name), ("description", .string ability.description)]
    ++ present "trigger" OpenTag.toJson ability.trigger
    ++ present "cost" Cost.toJson ability.cost
    ++ [("effects", .array (ability.effects.map Effect.toJson))]
    ++ present "maxUsesPerTurn" .ofUInt32 ability.perTurn
    ++ present "maxUsesPerGame" .ofUInt32 ability.perGame)

end Ability

end RulesText
