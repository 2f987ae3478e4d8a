import RulesText.Effect.Amount
import RulesText.Effect.Kind
import RulesText.Vocabulary.Attack
import RulesText.Vocabulary.Board
import RulesText.Vocabulary.Card
import RulesText.Vocabulary.Condition
import RulesText.Vocabulary.Duration
import RulesText.Vocabulary.Target

/-!
# Effects

An effect is one consequence of an ability: a target, a deed and perhaps a condition. Deeds are of
two sorts. A standing change is there for as long as its duration says and has to have one; an act
happens, and a duration is optional.
-/

namespace RulesText

/-- A change that stands for a while. -/
inductive Standing where
  | modifyStats (stat : Stat) (change : Int32)
  | immunity (sources : List ImmunitySource)
  | damageReduction (amount : UInt32)
  deriving DecidableEq, Repr

/-- Something that happens. Without a counter all kinds of counter are removed, without a count all
of them; without an amount all damage is prevented; without a count one card is searched for. -/
inductive Act where
  | dealDamage (amount : DamageAmount) (piercing : Bool)
  | heal (amount : HealAmount)
  | drawCards (count : UInt32)
  | applyCounter (counter : Counter) (count : UInt32)
  | removeCounter (counter : Option Counter) (count : Option UInt32)
  | cannotBeTargeted (sources : List TargetingSource) (threshold : Option UInt32)
  | attackModification (modifier : AttackModifier)
  | move (destination : Destination)
  | gainResource (resource : Resource) (amount : UInt32)
  | preventDamage (amount : Option UInt32)
  | searchDeck (count : Option UInt32) (card : Option CardKind) (affinity : Option Affinity)
  | destroy
  | temporaryHealth (amount : UInt32)
  | retaliation (amount : UInt32)
  | swap (what : SwapKind)
  | returnToHand
  | discard (count : UInt32) (random : Bool)
  | copyAbility
  | nullify
  | redirectDamage (recipient : Target)
  | removeSummoningSickness
  | summonToken (token : String) (count : UInt32)
  deriving DecidableEq, Repr

/-- What an effect does, and for how long. -/
inductive Deed where
  | standing (change : Standing) (duration : Duration)
  | act (what : Act) (duration : Option Duration)
  deriving DecidableEq, Repr

/-- One consequence of an ability. -/
structure Effect where
  target : Target
  deed : Deed
  condition : Option Condition := none
  deriving DecidableEq, Repr

/-- The kind of a standing change. -/
def Standing.kind : Standing → EffectKind
  | .modifyStats _ _ => .modifyStats
  | .immunity _ => .immunity
  | .damageReduction _ => .damageReduction

/-- The kind of an act. -/
def Act.kind : Act → EffectKind
  | .dealDamage _ _ => .dealDamage
  | .heal _ => .heal
  | .drawCards _ => .drawCards
  | .applyCounter _ _ => .applyCounter
  | .removeCounter _ _ => .removeCounter
  | .cannotBeTargeted _ _ => .cannotBeTargeted
  | .attackModification _ => .attackModification
  | .move _ => .move
  | .gainResource _ _ => .gainResource
  | .preventDamage _ => .preventDamage
  | .searchDeck _ _ _ => .searchDeck
  | .destroy => .destroy
  | .temporaryHealth _ => .temporaryHealth
  | .retaliation _ => .retaliation
  | .swap _ => .swap
  | .returnToHand => .returnToHand
  | .discard _ _ => .discard
  | .copyAbility => .copyAbility
  | .nullify => .nullify
  | .redirectDamage _ => .redirectDamage
  | .removeSummoningSickness => .removeSummoningSickness
  | .summonToken _ _ => .summonToken

namespace Deed

/-- The kind of a deed. -/
def kind : Deed → EffectKind
  | .standing change _ => change.kind
  | .act what _ => what.kind

/-- How long a deed lasts, if it says so. -/
def duration : Deed → Option Duration
  | .standing _ duration => some duration
  | .act _ duration => duration

/-- The same deed for another while. -/
def lasting (duration : Duration) : Deed → Deed
  | .standing change _ => .standing change duration
  | .act what _ => .act what (some duration)

end Deed

namespace Effect

/-- The kind of an effect. -/
def kind (effect : Effect) : EffectKind := effect.deed.kind

/-- How long an effect lasts, if it says so. -/
def duration (effect : Effect) : Option Duration := effect.deed.duration

/-! ## Adapting -/

/-- The effect on another target. -/
def aimedAt (effect : Effect) (target : Target) : Effect := { effect with target }

/-- The effect for another while. -/
def lasting (effect : Effect) (duration : Duration) : Effect :=
  { effect with deed := effect.deed.lasting duration }

/-- The effect under another condition. -/
def gatedBy (effect : Effect) (condition : Condition) : Effect :=
  { effect with condition := some condition }

/-! ## Building -/

/-- An act without duration or condition. -/
def once (target : Target) (act : Act) : Effect := { target, deed := .act act none }

/-- A change of stats while the source is on the field. -/
def modifyStats (target : Target) (stat : Stat) (change : Int32) : Effect :=
  { target, deed := .standing (.modifyStats stat change) .whileOnField }

/-- Damage. -/
def damage (target : Target) (amount : DamageAmount) : Effect :=
  once target (.dealDamage amount false)

/-- Damage that no shield lessens. -/
def piercingDamage (target : Target) (amount : DamageAmount) : Effect :=
  once target (.dealDamage amount true)

/-- Healing. -/
def heal (target : Target) (amount : HealAmount) : Effect := once target (.heal amount)

/-- Cards for the own gardener. -/
def draw (count : UInt32) : Effect := once (.known .playerGardener) (.drawCards count)

/-- New counters. -/
def applyCounter (target : Target) (counter : Counter) (count : UInt32) : Effect :=
  once target (.applyCounter counter count)

/-- The removal of all counters of every kind. -/
def clearCounters (target : Target) : Effect := once target (.removeCounter none none)

/-- The removal of some counters of one kind. -/
def removeCounters (target : Target) (counter : Counter) (count : UInt32) : Effect :=
  once target (.removeCounter (some counter) (some count))

/-- Immunity for a while. -/
def immunity (target : Target) (sources : List ImmunitySource) (duration : Duration) : Effect :=
  { target, deed := .standing (.immunity sources) duration }

/-- Protection from being targeted, whatever the source costs. -/
def cannotBeTargeted (target : Target) (sources : List TargetingSource) : Effect :=
  once target (.cannotBeTargeted sources none)

/-- A change to how the target attacks. -/
def attackModification (target : Target) (modifier : AttackModifier) : Effect :=
  once target (.attackModification modifier)

/-- Destruction. -/
def destroy (target : Target) : Effect := once target .destroy

/-- Damage dealt back. -/
def retaliation (target : Target) (amount : UInt32) : Effect := once target (.retaliation amount)

/-- Less damage taken for a while. -/
def damageReduction (target : Target) (amount : UInt32) (duration : Duration) : Effect :=
  { target, deed := .standing (.damageReduction amount) duration }

/-- Nectar for the own gardener. -/
def gainNectar (amount : UInt32) : Effect :=
  once (.known .playerGardener) (.gainResource .nectar amount)

/-- The freedom to attack in the turn of the summoning. -/
def removeSummoningSickness (target : Target) : Effect := once target .removeSummoningSickness

end Effect

end RulesText
