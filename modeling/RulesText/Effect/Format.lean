import RulesText.Effect.Basic
import RulesText.Format.Tagged

/-!
# The written form of effects

An effect is an object with a `type` tag. Behind the tag come the target, the members of the kind
itself, the duration and the condition. Each kind knows its own members only, and nothing else may
stand in it.
-/

namespace RulesText
open Format Json

namespace Effect

/-! ## Reading -/

/-- The members of a standing change: its duration is required. -/
def standingShape (change : Shape Standing) : Shape Effect :=
  (fun target change duration condition => ⟨target, .standing change duration, condition⟩)
    <$> .required "target" Target.read <*> change <*> .required "duration" Duration.read
    <*> .optional "condition" Condition.read

/-- The members of an act: its duration is optional. -/
def actShape (act : Shape Act) : Shape Effect :=
  (fun target act duration condition => ⟨target, .act act duration, condition⟩)
    <$> .required "target" Target.read <*> act <*> .optional "duration" Duration.read
    <*> .optional "condition" Condition.read

/-- The members of an effect of each kind, the tag aside. -/
def shape : EffectKind → Shape Effect
  | .modifyStats => standingShape
    (.modifyStats <$> .required "stat" Stat.read <*> .required "value" int32)
  | .dealDamage => actShape
    (.dealDamage <$> .required "value" DamageAmount.read <*> .defaulted "piercing" boolean false)
  | .heal => actShape (.heal <$> .required "value" HealAmount.read)
  | .drawCards => actShape (.drawCards <$> .required "value" uint32)
  | .applyCounter => actShape
    (.applyCounter <$> .required "counter" Counter.read <*> .required "value" uint32)
  | .removeCounter => actShape
    (.removeCounter <$> .optional "counter" Counter.read <*> .optional "value" uint32)
  | .immunity => standingShape (.immunity <$> .required "immuneTo" (list ImmunitySource.read))
  | .cannotBeTargeted => actShape
    (.cannotBeTargeted <$> .required "by" (list TargetingSource.read)
      <*> .optional "costThreshold" uint32)
  | .attackModification => actShape
    (.attackModification <$> .required "modification" AttackModifier.read)
  | .move => actShape (.move <$> .defaulted "to" Destination.read default)
  | .gainResource => actShape
    (.gainResource <$> .defaulted "resource" Resource.read default <*> .required "value" uint32)
  | .preventDamage => actShape (.preventDamage <$> .optional "value" uint32)
  | .searchDeck => actShape
    (.searchDeck <$> .optional "value" uint32 <*> .optional "cardKind" CardKind.read
      <*> .optional "affinity" Affinity.read)
  | .destroy => actShape (pure .destroy)
  | .temporaryHealth => actShape (.temporaryHealth <$> .required "value" uint32)
  | .damageReduction => standingShape (.damageReduction <$> .required "value" uint32)
  | .retaliation => actShape (.retaliation <$> .required "value" uint32)
  | .swap => actShape (.swap <$> .required "swap" SwapKind.read)
  | .returnToHand => actShape (pure .returnToHand)
  | .discard => actShape
    (.discard <$> .required "value" uint32 <*> .defaulted "random" boolean false)
  | .copyAbility => actShape (pure .copyAbility)
  | .nullify => actShape (pure .nullify)
  | .redirectDamage => actShape (.redirectDamage <$> .required "to" Target.read)
  | .removeSummoningSickness => actShape (pure .removeSummoningSickness)
  | .summonToken => actShape
    (.summonToken <$> .required "token" string <*> .required "value" uint32)

/-- What messages call an effect of each kind. -/
def title : EffectKind → String
  | .modifyStats => "struct StatModificationEffect"
  | .dealDamage => "struct DamageEffect"
  | .heal => "struct HealEffect"
  | .drawCards => "struct DrawCardsEffect"
  | .applyCounter => "struct ApplyCounterEffect"
  | .removeCounter => "struct RemoveCounterEffect"
  | .immunity => "struct ImmunityEffect"
  | .cannotBeTargeted => "struct CannotBeTargetedEffect"
  | .attackModification => "struct AttackModificationEffect"
  | .move => "struct MoveEffect"
  | .gainResource => "struct GainResourceEffect"
  | .preventDamage => "struct PreventDamageEffect"
  | .searchDeck => "struct SearchDeckEffect"
  | .temporaryHealth => "struct TemporaryHpEffect"
  | .damageReduction => "struct DamageReductionEffect"
  | .retaliation => "struct RetaliationEffect"
  | .swap => "struct SwapEffect"
  | .discard => "struct DiscardEffect"
  | .redirectDamage => "struct RedirectDamageEffect"
  | .summonToken => "struct SummonTokenEffect"
  | .destroy | .returnToHand | .copyAbility | .nullify | .removeSummoningSickness =>
    "struct BaseEffect"

/-- Effects know all their members. -/
def record (kind : EffectKind) : Record Effect := ⟨title kind, false, shape kind⟩

/-- Reads an effect. -/
def read : Reader Effect := tagged "internally tagged enum AbilityEffect" record

/-! ## Writing -/

/-- The members of a standing change itself. -/
def standingMembers : Standing → List (String × Json)
  | .modifyStats stat change => [("stat", wordJson stat), ("value", .ofInt32 change)]
  | .immunity sources => [("immuneTo", .array (sources.map wordJson))]
  | .damageReduction amount => [("value", .ofUInt32 amount)]

/-- The members of an act itself. -/
def actMembers : Act → List (String × Json)
  | .dealDamage amount piercing => ("value", amount.toJson) :: flag "piercing" piercing
  | .heal amount => [("value", amount.toJson)]
  | .drawCards count => [("value", .ofUInt32 count)]
  | .applyCounter counter count => [("counter", counter.toJson), ("value", .ofUInt32 count)]
  | .removeCounter counter count =>
    present "counter" OpenTag.toJson counter ++ present "value" .ofUInt32 count
  | .cannotBeTargeted sources threshold =>
    ("by", .array (sources.map wordJson)) :: present "costThreshold" .ofUInt32 threshold
  | .attackModification modifier => [("modification", modifier.toJson)]
  | .move destination => [("to", wordJson destination)]
  | .gainResource resource amount => [("resource", wordJson resource), ("value", .ofUInt32 amount)]
  | .preventDamage amount => present "value" .ofUInt32 amount
  | .searchDeck count card affinity =>
    present "value" .ofUInt32 count ++ present "cardKind" wordJson card
      ++ present "affinity" wordJson affinity
  | .temporaryHealth amount => [("value", .ofUInt32 amount)]
  | .retaliation amount => [("value", .ofUInt32 amount)]
  | .swap what => [("swap", wordJson what)]
  | .discard count random => ("value", .ofUInt32 count) :: flag "random" random
  | .redirectDamage recipient => [("to", recipient.toJson)]
  | .summonToken token count => [("token", .string token), ("value", .ofUInt32 count)]
  | .destroy | .returnToHand | .copyAbility | .nullify | .removeSummoningSickness => []

/-- The members of a deed itself. -/
def deedMembers : Deed → List (String × Json)
  | .standing change _ => standingMembers change
  | .act what _ => actMembers what

/-- The written form, the tag first. -/
def toJson (effect : Effect) : Json :=
  .object (("type", wordJson effect.kind) :: ("target", effect.target.toJson)
    :: deedMembers effect.deed ++ present "duration" wordJson effect.duration
    ++ present "condition" Condition.toJson effect.condition)

end Effect

end RulesText
