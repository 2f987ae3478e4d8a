import RulesText.Format.Tag

/-!
# Attack modifiers

Changes to how a Beast attacks. The vocabulary is open.
-/

namespace RulesText
open Format

/-- The changes that have a phrase here. -/
inductive AttackRule where
  | doubleDamage
  | tripleDamage
  | instantDestroy
  | attackTwice
  | attackFirst
  | cannotCounterattack
  | piercing
  | cannotAttack
  | attackAllEnemies
  | lifesteal
  deriving DecidableEq, Repr

namespace AttackRule

/-- How a change is spelled. -/
def spelling : AttackRule → String
  | .doubleDamage => "double-damage"
  | .tripleDamage => "triple-damage"
  | .instantDestroy => "instant-destroy"
  | .attackTwice => "attack-twice"
  | .attackFirst => "attack-first"
  | .cannotCounterattack => "cannot-counterattack"
  | .piercing => "piercing"
  | .cannotAttack => "cannot-attack"
  | .attackAllEnemies => "attack-all-enemies"
  | .lifesteal => "lifesteal"

instance : Vocabulary AttackRule where
  words := [.doubleDamage, .tripleDamage, .instantDestroy, .attackTwice, .attackFirst,
    .cannotCounterattack, .piercing, .cannotAttack, .attackAllEnemies, .lifesteal]
  spelling := AttackRule.spelling
  find_spelling word := by cases word <;> decide

/-- What a Beast that attacks so does. -/
def singular : AttackRule → String
  | .doubleDamage => "deals double damage"
  | .tripleDamage => "deals triple damage"
  | .instantDestroy => "destroys any Beast it damages"
  | .attackTwice => "can attack twice"
  | .attackFirst => "attacks first"
  | .cannotCounterattack => "can't be counterattacked"
  | .piercing => "has piercing"
  | .cannotAttack => "can't attack"
  | .attackAllEnemies => "attacks all enemies"
  | .lifesteal => "heals for damage it deals"

/-- What Beasts that attack so do. -/
def plural : AttackRule → String
  | .doubleDamage => "deal double damage"
  | .tripleDamage => "deal triple damage"
  | .instantDestroy => "destroy any Beast they damage"
  | .attackTwice => "can attack twice"
  | .attackFirst => "attack first"
  | .cannotCounterattack => "can't be counterattacked"
  | .piercing => "have piercing"
  | .cannotAttack => "can't attack"
  | .attackAllEnemies => "attack all enemies"
  | .lifesteal => "heal for damage they deal"

end AttackRule

/-- A change to how a Beast attacks. -/
abbrev AttackModifier := OpenTag AttackRule

namespace AttackModifier

/-- Reads a change. -/
def read : Reader AttackModifier := openTag "AttackModifier"

end AttackModifier

end RulesText
