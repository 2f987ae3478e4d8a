import RulesText.Format.Tag

/-!
# Counters

Markers that pile up on a Beast. The vocabulary is open, and a counter that it does not know is
called by its tag.
-/

namespace RulesText
open Format

/-- The markers that have a name here. -/
inductive Marker where
  | burn
  | spore
  | freeze
  | soot
  | poison
  | shield
  deriving DecidableEq, Repr

/-- How a marker is spelled. -/
def Marker.spelling : Marker → String
  | .burn => "burn"
  | .spore => "spore"
  | .freeze => "freeze"
  | .soot => "soot"
  | .poison => "poison"
  | .shield => "shield"

/-- The name of a marker in rules text. -/
def Marker.displayName : Marker → String
  | .burn => "Burn"
  | .spore => "Spore"
  | .freeze => "Freeze"
  | .soot => "Soot"
  | .poison => "Poison"
  | .shield => "Shield"

instance : Vocabulary Marker where
  words := [.burn, .spore, .freeze, .soot, .poison, .shield]
  spelling := Marker.spelling
  find_spelling word := by cases word <;> decide

/-- A kind of counter. -/
abbrev Counter := OpenTag Marker

namespace Counter

/-- The name of a counter in rules text. -/
def displayName : Counter → String
  | .known marker => marker.displayName
  | .unknown tag => tag

/-- Reads a counter. -/
def read : Reader Counter := openTag "CounterKind"

end Counter

end RulesText
