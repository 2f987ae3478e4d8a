import RulesText.Log
import RulesText.Text.Series
import RulesText.Vocabulary.Attack
import RulesText.Vocabulary.Cost
import RulesText.Vocabulary.Duration
import RulesText.Vocabulary.Target
import RulesText.Vocabulary.Trigger

/-!
# Phrases

The English for single words of the vocabularies. Every word has one: what is absent or goes
without saying is the empty text, and a tag without a phrase stands for itself and is noted.
-/

namespace RulesText.Describe
open Text

/-! ## Triggers and costs -/

/-- The opening of a sentence about an event. -/
def eventPhrase : Event → String
  | .passive | .activated => ""
  | .onSummon => "When summoned,"
  | .onAttack => "When attacking,"
  | .onDamage => "When attacked,"
  | .onDealDamage => "When dealing damage,"
  | .onDeath => "When destroyed,"
  | .onHeal => "When healed,"
  | .onTurnStart => "At start of turn,"
  | .onTurnEnd => "At end of turn,"
  | .onAllySummon => "When an ally is summoned,"
  | .onAllyDeath => "When an ally is destroyed,"
  | .onEnemySummon => "When an enemy is summoned,"
  | .onSpellCast => "When a spell is cast,"

/-- The opening of the sentence, such as `When summoned,`. -/
def triggerPhrase : Option Trigger → Logged String
  | none => pure ""
  | some (.known event) => pure (eventPhrase event)
  | some (.unknown tag) => do
    .note (.triggerWithoutPhrase tag)
    pure ""

/-- The cost in front of a sentence, such as `Discard 2 cards:`. -/
def costPhrase : Option Cost → String
  | none => ""
  | some cost =>
    let amount := cost.amount
    match cost.payment with
    | .nectar => "Pay " ++ numeral amount ++ " nectar:"
    | .discard => "Discard " ++ counted amount "card" "cards" ++ ":"
    | .sacrifice =>
      if amount = 1 then "Sacrifice an ally:" else "Sacrifice " ++ numeral amount ++ " allies:"
    | .removeCounter counter =>
      "Remove " ++ numeral amount ++ " " ++ counter.displayName
        ++ (if amount = 1 then " counter:" else " counters:")

/-! ## Targets -/

/-- The noun phrase of a scope. -/
def scopePhrase : Scope → String
  | .itself => "this"
  | .chosen => "target Beast"
  | .targetAlly => "target ally"
  | .targetEnemy => "target enemy"
  | .attacker => "attacker"
  | .allAllies => "all allies"
  | .allEnemies => "all enemies"
  | .adjacentAllies => "adjacent allies"
  | .adjacentEnemies => "adjacent enemies"
  | .otherAllies => "other allies"
  | .randomAlly => "a random ally"
  | .randomEnemy => "a random enemy"
  | .allUnits => "all Beasts"
  | .playerGardener => "you"
  | .opponentGardener => "opponent"

/-- The noun phrase of a target; an unknown one is called by its tag. -/
def targetPhrase : Target → Logged String
  | .known scope => pure (scopePhrase scope)
  | .unknown tag => do
    .note (.targetWithoutPhrase tag)
    pure tag

/-- The verb that agrees with a target. -/
def agreeing (target : Target) (one many : String) : String :=
  if target.isSingular then one else many

/-- What a modified attack does, in agreement with its subject; an unknown modifier is called by
its tag. -/
def modifierPhrase (modifier : AttackModifier) (singular : Bool) : Logged String :=
  match modifier with
  | .known rule => pure (if singular then rule.singular else rule.plural)
  | .unknown tag => do
    .note (.modifierWithoutPhrase tag)
    pure tag

/-! ## Durations and conditions -/

/-- How long something lasts. What happens once, or lasts while its source does, goes without
saying. -/
def durationPhrase : Option Duration → String
  | some .permanent => "permanently"
  | some .endOfTurn => "until end of turn"
  | some .startOfNextTurn => "until start of next turn"
  | some .thisTurn => "this turn"
  | some .nextAttack => "for next attack"
  | some .instant | some .whileOnField | none => ""

/-- The clause of a numeric condition; without a number the kind is called by its tag. -/
def numericPhrase (condition : Condition) (clause : String → String) : Logged String :=
  match condition.number? with
  | some number => pure (clause (toString number.toInt))
  | none => do
    .note (.conditionWithoutNumber condition.kind)
    pure ("if " ++ condition.kind.spelling)

/-- The clause of a condition that heeds its comparison, which is `>=` when there is none. -/
def comparisonPhrase (condition : Condition) (subject : String) : Logged String :=
  let comparison := condition.effectiveComparison.getD .greaterEqual
  numericPhrase condition fun number =>
    "if " ++ subject ++ " " ++ comparison.symbol ++ " " ++ number

/-- The clause of a condition, such as `if HP < 3`. -/
def conditionPhrase : Option Condition → Logged String
  | none => pure ""
  | some condition =>
    match condition.kind with
    | .hasCounter =>
      match condition.operand with
      | some (.counter kind) => pure ("if it has a " ++ kind.displayName ++ " counter")
      | _ => pure "if it has counters"
    | .affinityMatches =>
      match condition.operand with
      | some (.affinity element) => pure ("if " ++ element.displayName)
      | _ => pure "if affinity matches"
    | .isDamaged => pure "if damaged"
    | .isWilting => pure "if Wilting"
    | .healthBelow => numericPhrase condition fun number => "if HP < " ++ number
    | .healthAbove => numericPhrase condition fun number => "if HP > " ++ number
    | .costAbove => numericPhrase condition fun number => "if Cost " ++ number ++ "+"
    | .costBelow => numericPhrase condition fun number => "if Cost < " ++ number
    | .turnCount => comparisonPhrase condition "turn"
    | .unitsOnField => comparisonPhrase condition "units on field"
    | .resourceAvailable => comparisonPhrase condition "nectar"

end RulesText.Describe
