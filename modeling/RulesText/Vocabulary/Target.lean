import RulesText.Format.Tag

/-!
# Targets

The scope that an effect applies to. Which Beasts or gardeners lie in it is decided during play;
here a scope is only named. The vocabulary is open.
-/

namespace RulesText
open Format

/-- The scopes that have a meaning here. -/
inductive Scope where
  | itself
  | chosen
  | targetAlly
  | targetEnemy
  | attacker
  | allAllies
  | allEnemies
  | adjacentAllies
  | adjacentEnemies
  | otherAllies
  | randomAlly
  | randomEnemy
  | allUnits
  | playerGardener
  | opponentGardener
  deriving DecidableEq, Repr

/-- How a scope is spelled. -/
def Scope.spelling : Scope → String
  | .itself => "self"
  | .chosen => "target"
  | .targetAlly => "target-ally"
  | .targetEnemy => "target-enemy"
  | .attacker => "attacker"
  | .allAllies => "all-allies"
  | .allEnemies => "all-enemies"
  | .adjacentAllies => "adjacent-allies"
  | .adjacentEnemies => "adjacent-enemies"
  | .otherAllies => "other-allies"
  | .randomAlly => "random-ally"
  | .randomEnemy => "random-enemy"
  | .allUnits => "all-units"
  | .playerGardener => "player-gardener"
  | .opponentGardener => "opponent-gardener"

instance : Vocabulary Scope where
  words := [.itself, .chosen, .targetAlly, .targetEnemy, .attacker, .allAllies, .allEnemies,
    .adjacentAllies, .adjacentEnemies, .otherAllies, .randomAlly, .randomEnemy, .allUnits,
    .playerGardener, .opponentGardener]
  spelling := Scope.spelling
  find_spelling word := by cases word <;> decide

/-- What an effect applies to. -/
abbrev Target := OpenTag Scope

namespace Target

/-- Whether the target is the Beast that owns the ability. -/
def isSelf : Target → Bool
  | .known .itself => true
  | _ => false

/-- Whether the target is the opposing gardener. -/
def isOpponent : Target → Bool
  | .known .opponentGardener => true
  | _ => false

/-- Whether the target is one Beast or gardener and takes a singular verb. The own gardener is
addressed as `you` and does not. -/
def isSingular : Target → Bool
  | .known .itself | .known .chosen | .known .targetAlly | .known .targetEnemy | .known .attacker
  | .known .randomAlly | .known .randomEnemy | .known .opponentGardener => true
  | _ => false

/-- Reads a target. -/
def read : Reader Target := openTag "AbilityTarget"

end Target

end RulesText
