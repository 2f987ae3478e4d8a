import RulesText.Describe.Phrase
import RulesText.Effect.Basic
import RulesText.Text.Blank

/-!
# Clauses

One clause for each effect: the fragments that say what the effect does, then how long it lasts,
then under which condition. A clause is these fragments put together as a sentence, so the blanks
in raw tags leave no trace beyond single spaces.
-/

namespace RulesText.Describe
open Text

/-- A change of stats with its sign. -/
def signed (change : Int32) : String :=
  (if change.toInt < 0 then "-" else "+") ++ toString change.toInt.natAbs

/-- What a search looks for: `a Fire Beast`, `an Air spell`, `2 cards`. -/
def searchFragments (count : Option UInt32) (card : Option CardKind) (affinity : Option Affinity) :
    List String :=
  let element := (affinity.map Affinity.displayName).toList
  if count.getD 1 = 1 then
    (if affinity.any Affinity.takesAn then "an" else "a") :: element
      ++ [(card.map CardKind.singular).getD "card"]
  else
    numeral (count.getD 1) :: element ++ [(card.map CardKind.plural).getD "cards"]

/-- What a standing change does. -/
def standingFragments (target : Target) : Standing → Logged (List String)
  | .modifyStats stat change => do
    let subject ← targetPhrase target
    pure [subject, if target.isSelf then "gets" else "get", signed change, stat.label]
  | .immunity sources => do
    let subject ← targetPhrase target
    let against :=
      if sources.isEmpty then [] else ["to", conjunction (sources.map ImmunitySource.phrase)]
    pure ([subject, agreeing target "is" "are", "immune"] ++ against)
  | .damageReduction amount => do
    let subject ← targetPhrase target
    pure [subject, agreeing target "takes" "take", numeral amount, "less damage"]

/-- What an act does. Drawing, discarding, gaining, searching and summoning do not name their
target; at most they say that it is the opponent. -/
def actFragments (target : Target) : Act → Logged (List String)
  | .dealDamage amount piercing => do
    let object ← targetPhrase target
    let kind := if piercing then ["piercing"] else []
    match amount with
    | .fixed value => pure (["deal", numeral value] ++ kind ++ ["damage to", object])
    | .attackValue => pure (["deal"] ++ kind ++ ["damage equal to ATK to", object])
    | .computed formula =>
      pure (["deal"] ++ kind ++ ["damage equal to", formula.phrase, "to", object])
  | .heal amount => do
    let object ← targetPhrase target
    match amount with
    | .full => pure ["fully heal", object]
    | .fixed value => pure ["heal", object, "by", numeral value, "HP"]
    | .computed formula => pure ["heal", object, "by HP equal to", formula.phrase]
  | .drawCards count =>
    let cards := counted count "card" "cards"
    pure (if target.isOpponent then ["opponent draws", cards] else ["draw", cards])
  | .applyCounter counter count => do
    let object ← targetPhrase target
    pure ["put", numeral count, counter.displayName, if count > 1 then "counters" else "counter",
      "on", object]
  | .removeCounter counter count => do
    let object ← targetPhrase target
    match counter, count with
    | none, none => pure ["remove all counters from", object]
    | none, some count => pure ["remove", counted count "counter" "counters", "from", object]
    | some counter, none => pure ["remove all", counter.displayName, "counters from", object]
    | some counter, some count =>
      pure ["remove", numeral count, counter.displayName,
        if count = 1 then "counter" else "counters", "from", object]
  | .cannotBeTargeted sources threshold => do
    let subject ← targetPhrase target
    let barred :=
      if sources.isEmpty then [] else ["by", disjunction (sources.map TargetingSource.phrase)]
    let costly := match threshold with
      | some cost => ["with Cost", numeral cost, "or higher"]
      | none => []
    pure ([subject, "can't be targeted"] ++ barred ++ costly)
  | .attackModification modifier => do
    let subject ← targetPhrase target
    let phrase ← modifierPhrase modifier target.isSingular
    pure [subject, phrase]
  | .move destination => do
    let object ← targetPhrase target
    pure ["move", object, "to", destination.phrase]
  | .gainResource resource amount =>
    let gained := [numeral amount, resource.displayName]
    pure ((if target.isOpponent then "opponent gains" else "gain") :: gained)
  | .preventDamage amount => do
    let object ← targetPhrase target
    pure ["prevent", (amount.map numeral).getD "all", "damage to", object]
  | .searchDeck count card affinity =>
    pure ("search your deck for" :: searchFragments count card affinity)
  | .destroy => do
    let object ← targetPhrase target
    pure ["destroy", object]
  | .temporaryHealth amount => do
    let object ← targetPhrase target
    pure ["give", object, numeral amount, "temporary HP"]
  | .retaliation amount => do
    let object ← targetPhrase target
    pure ["deal", numeral amount, "damage to", object]
  | .swap what => do
    let object ← targetPhrase target
    match what with
    | .stats => pure ["swap ATK and HP of", object]
    | .positions => pure ["swap positions with", object]
  | .returnToHand => do
    let object ← targetPhrase target
    pure ["return", object, "to hand"]
  | .discard count random =>
    let how := if random then ["at random"] else []
    let verb := if target.isOpponent then "opponent discards" else "discard"
    pure ([verb, counted count "card" "cards"] ++ how)
  | .copyAbility => do
    let object ← targetPhrase target
    pure ["copy an ability from", object]
  | .nullify => do
    let object ← targetPhrase target
    pure ["nullify the abilities of", object]
  | .redirectDamage recipient => do
    let victim ← targetPhrase target
    let substitute ← targetPhrase recipient
    pure ["redirect damage dealt to", victim, "to", substitute]
  | .removeSummoningSickness => do
    let subject ← targetPhrase target
    pure [subject, "can attack immediately"]
  | .summonToken token count =>
    pure ["summon", numeral count, token, if count = 1 then "token" else "tokens"]

/-- What a deed does. -/
def deedFragments (target : Target) : Deed → Logged (List String)
  | .standing change _ => standingFragments target change
  | .act what _ => actFragments target what

/-- The clause of an effect, with its condition or without. -/
def clause (withCondition : Bool) (effect : Effect) : Logged String := do
  let deed ← deedFragments effect.target effect.deed
  let condition ← conditionPhrase (if withCondition then effect.condition else none)
  pure (sentence (deed ++ [durationPhrase effect.duration, condition]))

/-- The whole clause of an effect, such as `deal 2 damage to all enemies`. -/
def effectText (effect : Effect) : Logged String := clause true effect

end RulesText.Describe
