import RulesText.Format.Tag

/-!
# Cards and resources

The kinds of card that a deck can be searched for, and the resources that a gardener gains.
-/

namespace RulesText
open Format

/-- A kind of card. -/
inductive CardKind where
  | beast
  | spell
  | trap
  | habitat
  deriving DecidableEq, Repr

namespace CardKind

/-- How a kind of card is spelled. -/
def spelling : CardKind → String
  | .beast => "beast"
  | .spell => "spell"
  | .trap => "trap"
  | .habitat => "habitat"

/-- The noun for one card. -/
def singular : CardKind → String
  | .beast => "Beast"
  | .spell => "spell"
  | .trap => "trap"
  | .habitat => "Habitat"

/-- The noun for several cards. -/
def plural : CardKind → String
  | .beast => "Beasts"
  | .spell => "spells"
  | .trap => "traps"
  | .habitat => "Habitats"

instance : Vocabulary CardKind where
  words := [.beast, .spell, .trap, .habitat]
  spelling := CardKind.spelling
  find_spelling word := by cases word <;> decide

/-- Reads a kind of card. -/
def read : Reader CardKind := word

end CardKind

/-- What a gardener pays with. -/
inductive Resource where
  | nectar
  | maxNectar
  deriving DecidableEq, Repr

namespace Resource

/-- How a resource is spelled. -/
def spelling : Resource → String
  | .nectar => "nectar"
  | .maxNectar => "max-nectar"

/-- The name of a resource in rules text. -/
def displayName : Resource → String
  | .nectar => "nectar"
  | .maxNectar => "max nectar"

instance : Vocabulary Resource where
  words := [.nectar, .maxNectar]
  spelling := Resource.spelling
  find_spelling word := by cases word <;> decide

/-- A resource that is not named is nectar. -/
instance : Inhabited Resource := ⟨.nectar⟩

/-- Reads a resource. -/
def read : Reader Resource := word

end Resource

end RulesText
