import RulesText.Format.Tag

/-!
# Kinds of effect

The closed vocabulary of what an effect can do. For some kinds the consequence means nothing
without a duration.
-/

namespace RulesText
open Format

/-- What an effect does. -/
inductive EffectKind where
  | modifyStats
  | dealDamage
  | heal
  | drawCards
  | applyCounter
  | removeCounter
  | immunity
  | cannotBeTargeted
  | attackModification
  | move
  | gainResource
  | preventDamage
  | searchDeck
  | destroy
  | temporaryHealth
  | damageReduction
  | retaliation
  | swap
  | returnToHand
  | discard
  | copyAbility
  | nullify
  | redirectDamage
  | removeSummoningSickness
  | summonToken
  deriving DecidableEq, Repr

namespace EffectKind

/-- How a kind of effect is spelled. -/
def spelling : EffectKind → String
  | .modifyStats => "modify-stats"
  | .dealDamage => "deal-damage"
  | .heal => "heal"
  | .drawCards => "draw-cards"
  | .applyCounter => "apply-counter"
  | .removeCounter => "remove-counter"
  | .immunity => "immunity"
  | .cannotBeTargeted => "cannot-be-targeted"
  | .attackModification => "attack-modification"
  | .move => "move"
  | .gainResource => "gain-resource"
  | .preventDamage => "prevent-damage"
  | .searchDeck => "search-deck"
  | .destroy => "destroy"
  | .temporaryHealth => "temporary-hp"
  | .damageReduction => "damage-reduction"
  | .retaliation => "retaliation"
  | .swap => "swap"
  | .returnToHand => "return-to-hand"
  | .discard => "discard"
  | .copyAbility => "copy-ability"
  | .nullify => "nullify"
  | .redirectDamage => "redirect-damage"
  | .removeSummoningSickness => "remove-summoning-sickness"
  | .summonToken => "summon-token"

/-- All kinds of effect. -/
def all : List EffectKind := [.modifyStats, .dealDamage, .heal, .drawCards, .applyCounter,
  .removeCounter, .immunity, .cannotBeTargeted, .attackModification, .move, .gainResource,
  .preventDamage, .searchDeck, .destroy, .temporaryHealth, .damageReduction, .retaliation, .swap,
  .returnToHand, .discard, .copyAbility, .nullify, .redirectDamage, .removeSummoningSickness,
  .summonToken]

instance : Vocabulary EffectKind where
  words := all
  spelling := EffectKind.spelling
  find_spelling word := by cases word <;> decide

/-- Whether an effect of this kind must say how long it lasts. -/
def requiresDuration : EffectKind → Bool
  | .modifyStats | .immunity | .damageReduction => true
  | _ => false

/-- Reads a kind of effect. -/
def read : Reader EffectKind := word

end EffectKind

end RulesText
