import Mathlib.Data.List.Basic
import RulesText.Ability.Format
import RulesText.Json.Printer

/-!
# The last setting stands

Effects are adapted and abilities are built by calls, each of which sets one thing. However many
calls there are, and in whatever order, each thing is what the last call that sets it says, or what
it was before, and everything that no call sets stays as it is. Only the effects of an ability pile
up, in the order of the calls.
-/

namespace RulesText
open Json

/-! ## The last of several -/

section

variable {α γ : Type} (set? : γ → Option α)

/-- What the last of the calls that set something sets it to. -/
def lastSet (calls : List γ) : Option α := (calls.filterMap set?).getLast?

@[simp] theorem lastSet_nil : lastSet set? [] = none := rfl

@[simp] theorem lastSet_cons (call : γ) (calls : List γ) :
    lastSet set? (call :: calls) = (lastSet set? calls).or (set? call) := by
  unfold lastSet
  cases set : set? call with
  | none => simp [set]
  | some a =>
    rw [List.filterMap_cons_some set, List.getLast?_cons]
    cases (calls.filterMap set?).getLast? <;> rfl

end

/-! ## Effects -/

/-- What a deed does, however long it lasts. -/
def Deed.substance : Deed → Standing ⊕ Act
  | .standing change _ => .inl change
  | .act what _ => .inr what

namespace Effect

/-- A call that adapts an effect. -/
inductive Adaptation where
  | aimedAt (target : Target)
  | lasting (duration : Duration)
  | gatedBy (condition : Condition)
  deriving DecidableEq, Repr

namespace Adaptation

/-- The target that a call sets. -/
def target? : Adaptation → Option Target
  | .aimedAt target => some target
  | _ => none

/-- The duration that a call sets. -/
def duration? : Adaptation → Option Duration
  | .lasting duration => some duration
  | _ => none

/-- The condition that a call sets. -/
def condition? : Adaptation → Option Condition
  | .gatedBy condition => some condition
  | _ => none

end Adaptation

/-- The effect after a call. -/
def adapt (effect : Effect) : Adaptation → Effect
  | .aimedAt target => effect.aimedAt target
  | .lasting duration => effect.lasting duration
  | .gatedBy condition => effect.gatedBy condition

/-- The effect after calls, one after the other. -/
def adapted (effect : Effect) (calls : List Adaptation) : Effect := calls.foldl adapt effect

/-- Whether an effect is another one with some things set: it does the same, and its target, its
duration and its condition are those given or else those of the other effect. -/
structure Sets (before : Effect) (target : Option Target) (duration : Option Duration)
    (condition : Option Condition) (after : Effect) : Prop where
  substance : after.deed.substance = before.deed.substance
  target : after.target = target.getD before.target
  duration : after.duration = duration.or before.duration
  condition : after.condition = condition.or before.condition

/-- A call sets what it says and nothing else, whether the duration is required or not. -/
theorem adapt_sets (effect : Effect) (call : Adaptation) :
    effect.Sets call.target? call.duration? call.condition? (effect.adapt call) := by
  cases call with
  | aimedAt target => exact ⟨rfl, rfl, rfl, rfl⟩
  | gatedBy condition => exact ⟨rfl, rfl, rfl, rfl⟩
  | lasting duration =>
    obtain ⟨target, deed, condition⟩ := effect
    cases deed <;> exact ⟨rfl, rfl, rfl, rfl⟩

/-- Calls set what the last of them says. -/
theorem adapted_sets (effect : Effect) (calls : List Adaptation) :
    effect.Sets (lastSet Adaptation.target? calls) (lastSet Adaptation.duration? calls)
      (lastSet Adaptation.condition? calls) (effect.adapted calls) := by
  induction calls generalizing effect with
  | nil => exact ⟨rfl, rfl, rfl, rfl⟩
  | cons call calls ih =>
    have first := effect.adapt_sets call
    have others := ih (effect.adapt call)
    refine ⟨others.substance.trans first.substance, ?_, ?_, ?_⟩
    · rw [lastSet_cons, Option.getD_or, ← first.target]
      exact others.target
    · rw [lastSet_cons, Option.or_assoc, ← first.duration]
      exact others.duration
    · rw [lastSet_cons, Option.or_assoc, ← first.condition]
      exact others.condition

theorem kind_of_substance {effect other : Effect}
    (same : effect.deed.substance = other.deed.substance) : effect.kind = other.kind := by
  obtain ⟨_, deed, _⟩ := effect
  obtain ⟨_, deed', _⟩ := other
  cases deed <;> cases deed' <;> cases same <;> rfl

/-- What is set determines the effect. -/
theorem Sets.unique {before after after' : Effect} {target : Option Target}
    {duration : Option Duration} {condition : Option Condition}
    (sets : before.Sets target duration condition after)
    (sets' : before.Sets target duration condition after') : after = after' := by
  have substance := sets.substance.trans sets'.substance.symm
  have lasts := sets.duration.trans sets'.duration.symm
  obtain ⟨target, deed, condition⟩ := after
  obtain ⟨target', deed', condition'⟩ := after'
  obtain rfl : target = target' := sets.target.trans sets'.target.symm
  obtain rfl : condition = condition' := sets.condition.trans sets'.condition.symm
  -- Deeds that do the same differ in their duration only, which is read off.
  have deeds : deed = deed' := by
    cases deed <;> cases deed' <;> cases substance <;> cases lasts <;> rfl
  rw [deeds]

end Effect

/-! ## Abilities -/

namespace Ability

/-- A call that builds an ability. -/
inductive Call where
  | withDescription (description : String)
  | withTrigger (trigger : Trigger)
  | withCost (cost : Cost)
  | withEffect (effect : Effect)
  | withEffects (effects : List Effect)
  | cappedPerTurn (uses : UInt32)
  | cappedPerGame (uses : UInt32)
  deriving DecidableEq, Repr

/-- What calls set. -/
inductive Setting where
  | description
  | trigger
  | cost
  | effects
  | perTurn
  | perGame
  deriving DecidableEq, Repr

namespace Call

/-- What a call sets. -/
def setting : Call → Setting
  | .withDescription _ => .description
  | .withTrigger _ => .trigger
  | .withCost _ => .cost
  | .withEffect _ | .withEffects _ => .effects
  | .cappedPerTurn _ => .perTurn
  | .cappedPerGame _ => .perGame

/-- The description that a call sets. -/
def description? : Call → Option String
  | .withDescription description => some description
  | _ => none

/-- The trigger that a call sets. -/
def trigger? : Call → Option Trigger
  | .withTrigger trigger => some trigger
  | _ => none

/-- The cost that a call sets. -/
def cost? : Call → Option Cost
  | .withCost cost => some cost
  | _ => none

/-- The effects that a call adds. -/
def effects : Call → List Effect
  | .withEffect effect => [effect]
  | .withEffects effects => effects
  | _ => []

/-- The cap per turn that a call sets. -/
def perTurn? : Call → Option UInt32
  | .cappedPerTurn uses => some uses
  | _ => none

/-- The cap per game that a call sets. -/
def perGame? : Call → Option UInt32
  | .cappedPerGame uses => some uses
  | _ => none

end Call

/-- The ability after a call. -/
def call (ability : Ability) : Call → Ability
  | .withDescription description => ability.withDescription description
  | .withTrigger trigger => ability.withTrigger trigger
  | .withCost cost => ability.withCost cost
  | .withEffect effect => ability.withEffect effect
  | .withEffects effects => ability.withEffects effects
  | .cappedPerTurn uses => ability.cappedPerTurn uses
  | .cappedPerGame uses => ability.cappedPerGame uses

/-- The ability after calls, one after the other. -/
def built (ability : Ability) (calls : List Call) : Ability := calls.foldl call ability

/-- A call sets what it says, adds its effects behind those that are there, and does nothing
else. -/
theorem call_eq (ability : Ability) (call : Call) : ability.call call =
    { name := ability.name
      description := call.description?.getD ability.description
      trigger := call.trigger?.or ability.trigger
      cost := call.cost?.or ability.cost
      effects := ability.effects ++ call.effects
      perTurn := call.perTurn?.or ability.perTurn
      perGame := call.perGame?.or ability.perGame } := by
  cases call <;>
    simp [Ability.call, withDescription, withTrigger, withCost, withEffect, withEffects,
      cappedPerTurn, cappedPerGame, Call.description?, Call.trigger?, Call.cost?, Call.effects,
      Call.perTurn?, Call.perGame?]

/-- Calls set what the last of them says, and add the effects of all of them. -/
theorem built_eq (ability : Ability) (calls : List Call) : ability.built calls =
    { name := ability.name
      description := (lastSet Call.description? calls).getD ability.description
      trigger := (lastSet Call.trigger? calls).or ability.trigger
      cost := (lastSet Call.cost? calls).or ability.cost
      effects := ability.effects ++ calls.flatMap Call.effects
      perTurn := (lastSet Call.perTurn? calls).or ability.perTurn
      perGame := (lastSet Call.perGame? calls).or ability.perGame } := by
  induction calls generalizing ability with
  | nil => simp [built]
  | cons call calls ih =>
    have step : ability.built (call :: calls) = (ability.call call).built calls := rfl
    rw [step, ih, call_eq]
    simp only [lastSet_cons, Option.getD_or, Option.or_assoc, List.flatMap_cons, List.append_assoc]

/-- Calls that set different things may change places. -/
theorem call_comm (ability : Ability) {first second : Call}
    (different : first.setting ≠ second.setting) :
    (ability.call first).call second = (ability.call second).call first := by
  cases first <;> cases second <;> first | rfl | exact absurd rfl different

theorem built_append (ability : Ability) (calls calls' : List Call) :
    ability.built (calls ++ calls') = (ability.built calls).built calls' :=
  List.foldl_append

end Ability

/-! ## All calls -/

/-- An effect that is adapted is of the same kind and does the same, and has the last target,
duration and condition that were set, or those that it had; so calls that set the same last give the
same effect and the same text. An ability that is built from its name has what was set last, and all
effects in the order of the calls; calls next to each other that set different things may change
places. -/
theorem last_setting_stands :
    (∀ (effect : Effect) (calls : List Effect.Adaptation),
      (effect.adapted calls).kind = effect.kind ∧
      effect.Sets (lastSet Effect.Adaptation.target? calls)
        (lastSet Effect.Adaptation.duration? calls) (lastSet Effect.Adaptation.condition? calls)
        (effect.adapted calls)) ∧
    (∀ (effect : Effect) (calls calls' : List Effect.Adaptation),
      lastSet Effect.Adaptation.target? calls = lastSet Effect.Adaptation.target? calls' →
      lastSet Effect.Adaptation.duration? calls = lastSet Effect.Adaptation.duration? calls' →
      lastSet Effect.Adaptation.condition? calls = lastSet Effect.Adaptation.condition? calls' →
        effect.adapted calls = effect.adapted calls' ∧
        (effect.adapted calls).toJson.compact = (effect.adapted calls').toJson.compact) ∧
    (∀ (name : String) (calls : List Ability.Call), Ability.built { name } calls =
      { name
        description := (lastSet Ability.Call.description? calls).getD ""
        trigger := lastSet Ability.Call.trigger? calls
        cost := lastSet Ability.Call.cost? calls
        effects := calls.flatMap Ability.Call.effects
        perTurn := lastSet Ability.Call.perTurn? calls
        perGame := lastSet Ability.Call.perGame? calls }) ∧
    ∀ (ability : Ability) (before after : List Ability.Call) (first second : Ability.Call),
      first.setting ≠ second.setting →
        ability.built (before ++ first :: second :: after) =
          ability.built (before ++ second :: first :: after) := by
  refine ⟨fun effect calls => ?_, fun effect calls calls' target duration condition => ?_,
    fun name calls => ?_, fun ability before after first second different => ?_⟩
  · have sets := effect.adapted_sets calls
    exact ⟨Effect.kind_of_substance sets.substance, sets⟩
  · have sets := effect.adapted_sets calls
    rw [target, duration, condition] at sets
    have same := sets.unique (effect.adapted_sets calls')
    exact ⟨same, congrArg (fun effect => effect.toJson.compact) same⟩
  · rw [Ability.built_eq]
    simp only [Option.or_none, List.nil_append]
  · rw [Ability.built_append, Ability.built_append]
    exact congrArg (fun ability : Ability => ability.built after)
      (Ability.call_comm _ different)

/-- Redirected damage under two runs of calls that set the same last: who takes the damage is not
what the calls aim at. An ability whose name is followed by calls in two orders. -/
theorem redirection_settles :
    let redirect := Effect.once (.known .itself) (.redirectDamage (.known .adjacentAllies))
    let calls : List Effect.Adaptation :=
      [.aimedAt (.known .attacker), .lasting .endOfTurn, .aimedAt (.known .randomAlly)]
    let calls' : List Effect.Adaptation :=
      [.aimedAt (.known .randomAlly), .lasting .permanent, .lasting .endOfTurn]
    let before : List Ability.Call := [.withEffect redirect]
    let first : Ability.Call := .cappedPerTurn 1
    let second : Ability.Call := .withEffects [redirect, .draw 1]
    redirect.adapted calls = redirect.adapted calls' ∧
      (redirect.adapted calls).deed =
        .act (.redirectDamage (.known .adjacentAllies)) (some .endOfTurn) ∧
      ({ name := "Shelter" } : Ability).built (before ++ first :: second :: []) =
        ({ name := "Shelter" } : Ability).built (before ++ second :: first :: []) := by
  intro redirect calls calls' before first second
  obtain ⟨_, same, _, swap⟩ := last_setting_stands
  exact ⟨(same redirect calls calls' rfl rfl rfl).1, rfl, swap _ before [] first second nofun⟩

end RulesText
