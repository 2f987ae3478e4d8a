import RulesText.Describe.Sentence

/-!
# Auditing abilities

An audit rejects nothing: whatever it finds is rendered all the same. It points at data whose text
reads oddly, and at descriptions that no longer say what the data says.
-/

namespace RulesText
open Describe Text

/-- Something odd about an ability. Effects are given by their position. -/
inductive Finding where
  | emptyEffects
  | ignoredComparison (effect : Nat)
  | missingConditionValue (effect : Nat)
  | zeroUsageCap
  | staleDescription (expected : String)
  deriving DecidableEq, Repr

namespace Finding

/-- The effect that a finding is about. -/
def effect? : Finding → Option Nat
  | .ignoredComparison effect | .missingConditionValue effect => some effect
  | .emptyEffects | .zeroUsageCap | .staleDescription _ => none

/-- The wording of a finding. -/
def message : Finding → String
  | .emptyEffects => "ability has no effects"
  | .ignoredComparison effect =>
    "effect " ++ toString effect ++ ": comparison is ignored by this condition"
  | .missingConditionValue effect =>
    "effect " ++ toString effect ++ ": numeric condition has no number"
  | .zeroUsageCap => "usage cap of 0 makes the ability unusable"
  | .staleDescription expected => "description is stale, generated text is " ++ ticked expected

end Finding

namespace Ability

/-- What is odd about the condition of the effect at a position. -/
def conditionFindings (position : Nat) (condition : Condition) : List Finding :=
  (if condition.comparison.isSome ∧ condition.effectiveComparison.isNone then
    [.ignoredComparison position] else [])
  ++ (if condition.kind.isNumeric ∧ condition.number?.isNone then
    [.missingConditionValue position] else [])

/-- What is odd about effects that begin at a position. -/
def effectFindings (position : Nat) : List Effect → List Finding
  | [] => []
  | effect :: rest =>
    (match effect.condition with
      | some condition => conditionFindings position condition
      | none => [])
    ++ effectFindings (position + 1) rest

/-- What is odd about the ability as such. -/
def wholeFindings (ability : Ability) : List Finding :=
  (if ability.doesSomething then [] else [.emptyEffects])
  ++ (if ability.perTurn = some 0 ∨ ability.perGame = some 0 then [.zeroUsageCap] else [])

/-- Whether the description differs from the canonical text. Without a description there is
nothing to compare. -/
def descriptionFindings (ability : Ability) : Logged (List Finding) :=
  if ability.description = "" then pure []
  else do
    let expected ← describe .canonical ability
    pure (if ability.description = expected then [] else [.staleDescription expected])

/-- All findings: first the ability as such, then its effects in order, then the description. -/
def audit (ability : Ability) : Logged (List Finding) := do
  let stale ← ability.descriptionFindings
  pure (ability.wholeFindings ++ effectFindings 0 ability.effects ++ stale)

end Ability

end RulesText
