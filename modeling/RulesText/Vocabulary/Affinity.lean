import RulesText.Format.Tag

/-!
# Affinities

The element that a card belongs to. The vocabulary is closed: the operand of a condition is tried
as an affinity first, so an open one would leave nothing to be a counter.
-/

namespace RulesText
open Format

/-- The element of a card. -/
inductive Affinity where
  | fire
  | water
  | earth
  | air
  | bloom
  deriving DecidableEq, Repr

namespace Affinity

/-- How an affinity is spelled. -/
def spelling : Affinity → String
  | .fire => "fire"
  | .water => "water"
  | .earth => "earth"
  | .air => "air"
  | .bloom => "bloom"

/-- The name of an affinity in rules text. -/
def displayName : Affinity → String
  | .fire => "Fire"
  | .water => "Water"
  | .earth => "Earth"
  | .air => "Air"
  | .bloom => "Bloom"

/-- Whether the name begins with a vowel and takes `an`. -/
def takesAn : Affinity → Bool
  | .earth | .air => true
  | .fire | .water | .bloom => false

instance : Vocabulary Affinity where
  words := [.fire, .water, .earth, .air, .bloom]
  spelling := Affinity.spelling
  find_spelling word := by cases word <;> decide

/-- Reads an affinity. -/
def read : Reader Affinity := word

end Affinity

end RulesText
