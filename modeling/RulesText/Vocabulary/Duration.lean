import RulesText.Format.Tag

/-!
# Durations

How long the consequence of an effect lasts. An effect without a duration happens once.
-/

namespace RulesText
open Format

/-- How long something lasts. -/
inductive Duration where
  | permanent
  | endOfTurn
  | startOfNextTurn
  | instant
  | whileOnField
  | nextAttack
  | thisTurn
  deriving DecidableEq, Repr

namespace Duration

/-- How a duration is spelled. -/
def spelling : Duration → String
  | .permanent => "permanent"
  | .endOfTurn => "end-of-turn"
  | .startOfNextTurn => "start-of-next-turn"
  | .instant => "instant"
  | .whileOnField => "while-on-field"
  | .nextAttack => "next-attack"
  | .thisTurn => "this-turn"

instance : Vocabulary Duration where
  words := [.permanent, .endOfTurn, .startOfNextTurn, .instant, .whileOnField, .nextAttack,
    .thisTurn]
  spelling := Duration.spelling
  find_spelling word := by cases word <;> decide

/-- What happens once is instant. -/
instance : Inhabited Duration := ⟨.instant⟩

/-- Reads a duration. -/
def read : Reader Duration := word

end Duration

end RulesText
