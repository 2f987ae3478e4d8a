import RulesText.Effect.Basic
import RulesText.Vocabulary.Cost
import RulesText.Vocabulary.Trigger

/-!
# Abilities

An ability has a name, perhaps a trigger and a cost, its effects in order, and caps on its use. The
description is what its author wrote and may have gone stale.
-/

namespace RulesText

/-- A named ability. -/
structure Ability where
  name : String
  description : String := ""
  trigger : Option Trigger := none
  cost : Option Cost := none
  effects : List Effect := []
  perTurn : Option UInt32 := none
  perGame : Option UInt32 := none
  deriving DecidableEq, Repr

namespace Ability

/-- Whether the ability has any effect. -/
def doesSomething (ability : Ability) : Bool := !ability.effects.isEmpty

/-- The kinds of its effects, in order. -/
def effectKinds (ability : Ability) : List EffectKind := ability.effects.map Effect.kind

/-! ## Building -/

/-- The ability with another description. -/
def withDescription (ability : Ability) (description : String) : Ability :=
  { ability with description }

/-- The ability with another trigger. -/
def withTrigger (ability : Ability) (trigger : Trigger) : Ability :=
  { ability with trigger := some trigger }

/-- The ability at another cost. -/
def withCost (ability : Ability) (cost : Cost) : Ability :=
  { ability with cost := some cost }

/-- The ability with further effects behind its own. -/
def withEffects (ability : Ability) (effects : List Effect) : Ability :=
  { ability with effects := ability.effects ++ effects }

/-- The ability with one more effect. -/
def withEffect (ability : Ability) (effect : Effect) : Ability := ability.withEffects [effect]

/-- The ability with another cap per turn. -/
def cappedPerTurn (ability : Ability) (uses : UInt32) : Ability :=
  { ability with perTurn := some uses }

/-- The ability with another cap per game. -/
def cappedPerGame (ability : Ability) (uses : UInt32) : Ability :=
  { ability with perGame := some uses }

end Ability

end RulesText
