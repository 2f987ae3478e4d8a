import RulesText.Format.Tag

/-!
# Amounts of damage and healing

An amount is a number, or a keyword of its own, or computed by a formula when the effect happens.
The three are told apart by their written form, which damage and healing share; only then is a
keyword looked at.
-/

namespace RulesText
open Format Json

/-- A value computed when the effect happens. -/
inductive Formula where
  | countersOnTarget
  | alliesOnField
  | damageDealt
  | missingHealth
  | cardsInHand
  deriving DecidableEq, Repr

namespace Formula

/-- How a formula is spelled. -/
def spelling : Formula → String
  | .countersOnTarget => "counters-on-target"
  | .alliesOnField => "allies-on-field"
  | .damageDealt => "damage-dealt"
  | .missingHealth => "missing-health"
  | .cardsInHand => "cards-in-hand"

/-- The noun phrase for what a formula computes. -/
def phrase : Formula → String
  | .countersOnTarget => "the number of counters on it"
  | .alliesOnField => "the number of allies"
  | .damageDealt => "the damage dealt"
  | .missingHealth => "its missing HP"
  | .cardsInHand => "the number of cards in your hand"

instance : Vocabulary Formula where
  words := [.countersOnTarget, .alliesOnField, .damageDealt, .missingHealth, .cardsInHand]
  spelling := Formula.spelling
  find_spelling word := by cases word <;> decide

/-- Reads a formula. -/
def read : Reader Formula := word

end Formula

/-- The written form of an amount. -/
inductive AmountForm where
  | number (value : UInt32)
  | keyword (text : String)
  | computed (formula : Formula)
  deriving DecidableEq, Repr

namespace AmountForm

/-- The formula of an object whose only member of that name spells one. -/
def formula? : Doc → Option Formula
  | .object members _ =>
    match members.filter fun (key, _) => key.is "formula" with
    | [(_, value)] => word? value
    | _ => none
  | _ => none

/-- The first form that fits: a number, a keyword, a formula. -/
def ofDoc? (doc : Doc) : Option AmountForm :=
  (((uint32 .buffer doc).toOption.map .number).or ((string? doc).map .keyword)).or
    ((formula? doc).map .computed)

/-- Reads the form of an amount. -/
def read : Reader AmountForm := alternatives "AmountRepr" ofDoc?

/-- The written form as a value. -/
def toJson : AmountForm → Json
  | .number value => .ofUInt32 value
  | .keyword text => .string text
  | .computed formula => .object [("formula", wordJson formula)]

end AmountForm

/-- How much damage is dealt: a number, the attack of the source, or what a formula computes. -/
inductive DamageAmount where
  | fixed (value : UInt32)
  | attackValue
  | computed (formula : Formula)
  deriving DecidableEq, Repr

namespace DamageAmount

/-- The amount of a written form. -/
def ofForm : AmountForm → Except Fault DamageAmount
  | .number value => pure (.fixed value)
  | .keyword text =>
    if text = "attack-value" then pure .attackValue else mismatch (.unknownAmount "damage" text)
  | .computed formula => pure (.computed formula)

/-- The form of an amount. -/
def form : DamageAmount → AmountForm
  | .fixed value => .number value
  | .attackValue => .keyword "attack-value"
  | .computed formula => .computed formula

/-- Reads an amount of damage. -/
def read : Reader DamageAmount := fun source doc => do ofForm (← AmountForm.read source doc)

/-- The written form as a value. -/
def toJson (amount : DamageAmount) : Json := amount.form.toJson

end DamageAmount

/-- How much is healed: a number, all that is missing, or what a formula computes. -/
inductive HealAmount where
  | fixed (value : UInt32)
  | full
  | computed (formula : Formula)
  deriving DecidableEq, Repr

namespace HealAmount

/-- The amount of a written form. -/
def ofForm : AmountForm → Except Fault HealAmount
  | .number value => pure (.fixed value)
  | .keyword text =>
    if text = "full" then pure .full else mismatch (.unknownAmount "heal" text)
  | .computed formula => pure (.computed formula)

/-- The form of an amount. -/
def form : HealAmount → AmountForm
  | .fixed value => .number value
  | .full => .keyword "full"
  | .computed formula => .computed formula

/-- Reads an amount of healing. -/
def read : Reader HealAmount := fun source doc => do ofForm (← AmountForm.read source doc)

/-- The written form as a value. -/
def toJson (amount : HealAmount) : Json := amount.form.toJson

end HealAmount

end RulesText
