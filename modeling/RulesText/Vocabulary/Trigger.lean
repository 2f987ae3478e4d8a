import RulesText.Format.Tag

/-!
# Triggers

The game event that makes the effects of an ability happen. The vocabulary is open: an event of a
newer game is kept under its tag.
-/

namespace RulesText
open Format

/-- The events that have a meaning here. -/
inductive Event where
  | passive
  | activated
  | onSummon
  | onAttack
  | onDamage
  | onDealDamage
  | onDeath
  | onHeal
  | onTurnStart
  | onTurnEnd
  | onAllySummon
  | onAllyDeath
  | onEnemySummon
  | onSpellCast
  deriving DecidableEq, Repr

/-- How an event is spelled. -/
def Event.spelling : Event → String
  | .passive => "Passive"
  | .activated => "Activated"
  | .onSummon => "OnSummon"
  | .onAttack => "OnAttack"
  | .onDamage => "OnDamage"
  | .onDealDamage => "OnDealDamage"
  | .onDeath => "OnDeath"
  | .onHeal => "OnHeal"
  | .onTurnStart => "OnTurnStart"
  | .onTurnEnd => "OnTurnEnd"
  | .onAllySummon => "OnAllySummon"
  | .onAllyDeath => "OnAllyDeath"
  | .onEnemySummon => "OnEnemySummon"
  | .onSpellCast => "OnSpellCast"

instance : Vocabulary Event where
  words := [.passive, .activated, .onSummon, .onAttack, .onDamage, .onDealDamage, .onDeath,
    .onHeal, .onTurnStart, .onTurnEnd, .onAllySummon, .onAllyDeath, .onEnemySummon, .onSpellCast]
  spelling := Event.spelling
  find_spelling word := by cases word <;> decide

/-- What makes an ability happen. -/
abbrev Trigger := OpenTag Event

namespace Trigger

/-- Whether the trigger is no event at all, so that there is nothing to say. -/
def isImplicit : Trigger → Bool
  | .known .passive | .known .activated => true
  | _ => false

/-- Reads a trigger. -/
def read : Reader Trigger := openTag "AbilityTrigger"

end Trigger

end RulesText
