import RulesText.Format.Tag

/-!
# Words for the board

The small closed vocabularies that single effects use: stats, places to move to, things to swap,
and the sources that an effect protects from.
-/

namespace RulesText
open Format

/-- The stats that an effect changes. -/
inductive Stat where
  | attack
  | health
  | both
  deriving DecidableEq, Repr

namespace Stat

/-- How a stat is spelled. -/
def spelling : Stat → String
  | .attack => "attack"
  | .health => "health"
  | .both => "both"

/-- The name of a stat in rules text. -/
def label : Stat → String
  | .attack => "ATK"
  | .health => "HP"
  | .both => "ATK/HP"

instance : Vocabulary Stat where
  words := [.attack, .health, .both]
  spelling := Stat.spelling
  find_spelling word := by cases word <;> decide

/-- Reads a stat. -/
def read : Reader Stat := word

end Stat

/-- Where a moved Beast ends up. -/
inductive Destination where
  | adjacent
  | empty
  | front
  | back
  deriving DecidableEq, Repr

namespace Destination

/-- How a destination is spelled. -/
def spelling : Destination → String
  | .adjacent => "adjacent"
  | .empty => "empty"
  | .front => "front"
  | .back => "back"

/-- The destination in rules text. -/
def phrase : Destination → String
  | .adjacent => "an adjacent space"
  | .empty => "an empty space"
  | .front => "the front row"
  | .back => "the back row"

instance : Vocabulary Destination where
  words := [.adjacent, .empty, .front, .back]
  spelling := Destination.spelling
  find_spelling word := by cases word <;> decide

/-- A move without a destination goes to an adjacent space. -/
instance : Inhabited Destination := ⟨.adjacent⟩

/-- Reads a destination. -/
def read : Reader Destination := word

end Destination

/-- What is swapped: the attack and health of a Beast, or places on the board. -/
inductive SwapKind where
  | stats
  | positions
  deriving DecidableEq, Repr

namespace SwapKind

/-- How a swap is spelled. -/
def spelling : SwapKind → String
  | .stats => "stats"
  | .positions => "positions"

instance : Vocabulary SwapKind where
  words := [.stats, .positions]
  spelling := SwapKind.spelling
  find_spelling word := by cases word <;> decide

/-- Reads a swap. -/
def read : Reader SwapKind := word

end SwapKind

/-- Something that a Beast can be immune to. -/
inductive ImmunitySource where
  | damage
  | spells
  | traps
  | counters
  | abilities
  | destroy
  | attackModifications
  deriving DecidableEq, Repr

namespace ImmunitySource

/-- How a source is spelled. -/
def spelling : ImmunitySource → String
  | .damage => "damage"
  | .spells => "spells"
  | .traps => "traps"
  | .counters => "counters"
  | .abilities => "abilities"
  | .destroy => "destroy"
  | .attackModifications => "attack-modifications"

/-- The source in rules text. -/
def phrase : ImmunitySource → String
  | .damage => "damage"
  | .spells => "spells"
  | .traps => "traps"
  | .counters => "counters"
  | .abilities => "abilities"
  | .destroy => "destruction"
  | .attackModifications => "attack modifications"

instance : Vocabulary ImmunitySource where
  words := [.damage, .spells, .traps, .counters, .abilities, .destroy, .attackModifications]
  spelling := ImmunitySource.spelling
  find_spelling word := by cases word <;> decide

/-- Reads a source. -/
def read : Reader ImmunitySource := word

end ImmunitySource

/-- A source that can be kept from targeting a Beast. -/
inductive TargetingSource where
  | spells
  | traps
  | abilities
  | enemies
  | enemyAbilities
  deriving DecidableEq, Repr

namespace TargetingSource

/-- How a source is spelled. -/
def spelling : TargetingSource → String
  | .spells => "spells"
  | .traps => "traps"
  | .abilities => "abilities"
  | .enemies => "enemies"
  | .enemyAbilities => "enemy-abilities"

/-- The source in rules text. -/
def phrase : TargetingSource → String
  | .spells => "spells"
  | .traps => "traps"
  | .abilities => "abilities"
  | .enemies => "enemies"
  | .enemyAbilities => "enemy abilities"

instance : Vocabulary TargetingSource where
  words := [.spells, .traps, .abilities, .enemies, .enemyAbilities]
  spelling := TargetingSource.spelling
  find_spelling word := by cases word <;> decide

/-- Reads a source. -/
def read : Reader TargetingSource := word

end TargetingSource

end RulesText
