import RulesText.Ability.Basic
import RulesText.Describe.Clause
import RulesText.Describe.Config
import RulesText.Text.Uppercase

/-!
# The text of an ability

One sentence: the trigger, the cost, the clauses of the effects, and the caps on use. An ability
that has nothing to say is called by its name.
-/

namespace RulesText.Describe
open Text

/-- The caps on use, as they are mentioned. Any cap per game reads as a single use. -/
def capFragments (ability : Ability) : List String :=
  (ability.perTurn.map fun uses => "(" ++ numeral uses ++ "x per turn)").toList
    ++ (ability.perGame.map fun _ => "(once per game)").toList

/-- The sentence about an ability, empty if there is nothing to say. -/
def spoken (config : Config) (ability : Ability) : Logged String := do
  let trigger ← triggerPhrase ability.trigger
  let effects ← ability.effects.mapM (clause config.conditions)
  let caps := if config.usageLimits then capFragments ability else []
  pure (sentence ([trigger, costPhrase ability.cost, clauses effects] ++ caps))

/-- The text of an ability. The name that stands in for an empty sentence is left as it is. -/
def describe (config : Config) (ability : Ability) : Logged String := do
  let sentence ← spoken config ability
  let text :=
    if sentence = "" then ability.name
    else if config.capitalize then capitalize sentence
    else sentence
  .note (.described ability.name text)
  pure text

end RulesText.Describe
