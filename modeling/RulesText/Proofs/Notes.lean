import RulesText.Proofs.Conditions
import RulesText.Proofs.Sentence

/-!
# What a description notes

The notes of a description are the gaps in its vocabulary, in the order in which the text comes to
them: a trigger without a phrase, then for each effect the targets without a phrase that its clause
names, an attack modifier without a phrase, and a numeric condition without its number where
conditions are mentioned. The last note holds the finished text. So a description without gaps is
one that notes nothing but its text.
-/

namespace RulesText
open Describe Format

/-! ## What a clause names -/

/-- The spelling of a tag that its vocabulary does not know. -/
def Format.OpenTag.raw? {κ : Type} : OpenTag κ → Option String
  | .known _ => none
  | .unknown tag => some tag

theorem Format.OpenTag.raw?_eq_some_iff {κ : Type} {tag : OpenTag κ} {raw : String} :
    tag.raw? = some raw ↔ tag = .unknown raw := by
  cases tag <;> simp [raw?]

/-- Whether the clauses of effects of a kind name the target. -/
def EffectKind.namesTarget : EffectKind → Bool
  | .drawCards | .gainResource | .discard | .searchDeck | .summonToken => false
  | _ => true

namespace Act

/-- The target that damage is redirected to. -/
def recipient? : Act → Option Target
  | .redirectDamage recipient => some recipient
  | _ => none

/-- The attack modifier of an act. -/
def modifier? : Act → Option AttackModifier
  | .attackModification modifier => some modifier
  | _ => none

end Act

/-- The act that a deed is, if it is one. -/
def Deed.act? : Deed → Option Act
  | .standing _ _ => none
  | .act what _ => some what

namespace Effect

/-- The targets that the clause of an effect names, in order. -/
def namedTargets (effect : Effect) : List Target :=
  (if effect.kind.namesTarget then [effect.target] else [])
    ++ (effect.deed.act?.bind Act.recipient?).toList

/-- The attack modifier that the clause of an effect names. -/
def modifier? (effect : Effect) : Option AttackModifier := effect.deed.act?.bind Act.modifier?

/-- The tags without a phrase among the targets that the clause of an effect names, in order. -/
def rawTargets (effect : Effect) : List String :=
  effect.namedTargets.flatMap fun target => target.raw?.toList

/-- The attack modifier that the clause of an effect names, if it is a tag without a phrase. -/
def rawModifier? (effect : Effect) : Option String := effect.modifier?.bind OpenTag.raw?

/-- The condition of an effect, if it lacks its number. -/
def numberless? (effect : Effect) : Option Condition :=
  effect.condition.filter fun condition => condition.LacksNumber

theorem mem_rawTargets_iff {effect : Effect} {tag : String} :
    tag ∈ effect.rawTargets ↔ .unknown tag ∈ effect.namedTargets := by
  simp [rawTargets, OpenTag.raw?_eq_some_iff]

theorem rawModifier?_eq_some_iff {effect : Effect} {tag : String} :
    effect.rawModifier? = some tag ↔ effect.modifier? = some (.unknown tag) := by
  simp [rawModifier?, Option.bind_eq_some_iff, OpenTag.raw?_eq_some_iff]

theorem numberless?_eq_some_iff {effect : Effect} {condition : Condition} :
    effect.numberless? = some condition ↔
      effect.condition = some condition ∧ condition.LacksNumber := by
  simp [numberless?, Option.filter_eq_some_iff]

end Effect

/-! ## Gaps in the vocabulary -/

/-- The notes on an effect under a configuration, in order. -/
def Effect.gaps (config : Config) (effect : Effect) : List Note :=
  effect.rawTargets.map .targetWithoutPhrase
    ++ effect.rawModifier?.toList.map .modifierWithoutPhrase
    ++ if config.conditions then
        effect.numberless?.toList.map (.conditionWithoutNumber ·.kind)
      else []

namespace Ability

/-- The notes on an ability under a configuration, in order. -/
def gaps (config : Config) (ability : Ability) : List Note :=
  (ability.trigger.bind OpenTag.raw?).toList.map .triggerWithoutPhrase
    ++ ability.effects.flatMap (Effect.gaps config)

/-- Whether there is a phrase for every tag, and a number for every numeric condition, that the text
of an ability comes to under a configuration. -/
structure Phrased (config : Config) (ability : Ability) : Prop where
  trigger : ∀ tag, ability.trigger ≠ some (.unknown tag)
  targets : ∀ effect ∈ ability.effects, ∀ tag, .unknown tag ∉ effect.namedTargets
  modifiers : ∀ effect ∈ ability.effects, ∀ tag, effect.modifier? ≠ some (.unknown tag)
  conditions : config.conditions = true → ∀ effect ∈ ability.effects, ∀ condition,
    effect.condition = some condition → ¬ condition.LacksNumber

end Ability

/-! ## Which gaps there are -/

theorem Effect.mem_gaps_iff {config : Config} {effect : Effect} {note : Note} :
    note ∈ effect.gaps config ↔
      (∃ tag, .unknown tag ∈ effect.namedTargets ∧ .targetWithoutPhrase tag = note) ∨
      (∃ tag, effect.modifier? = some (.unknown tag) ∧ .modifierWithoutPhrase tag = note) ∨
      config.conditions = true ∧ ∃ condition, effect.condition = some condition ∧
        condition.LacksNumber ∧ .conditionWithoutNumber condition.kind = note := by
  cases mentioned : config.conditions <;>
    simp [gaps, mentioned, mem_rawTargets_iff, rawModifier?_eq_some_iff, numberless?_eq_some_iff,
      and_assoc]

namespace Ability

theorem mem_gaps_iff {config : Config} {ability : Ability} {note : Note} :
    note ∈ ability.gaps config ↔
      (∃ tag, ability.trigger = some (.unknown tag) ∧ .triggerWithoutPhrase tag = note) ∨
      ∃ effect ∈ ability.effects, note ∈ effect.gaps config := by
  simp [gaps, Option.bind_eq_some_iff, OpenTag.raw?_eq_some_iff]

theorem level_of_mem_gaps {config : Config} {ability : Ability} {note : Note}
    (member : note ∈ ability.gaps config) : note.level = .debug := by
  rcases mem_gaps_iff.1 member with ⟨tag, _, rfl⟩ | ⟨effect, _, own⟩
  · rfl
  · rcases Effect.mem_gaps_iff.1 own with ⟨tag, _, rfl⟩ | ⟨tag, _, rfl⟩ | ⟨_, condition, _, _, rfl⟩
    · rfl
    · rfl
    · rfl

theorem gaps_eq_nil_iff (config : Config) (ability : Ability) :
    ability.gaps config = [] ↔ ability.Phrased config := by
  rw [List.eq_nil_iff_forall_not_mem]
  simp only [mem_gaps_iff, Effect.mem_gaps_iff]
  constructor
  · intro none
    constructor
    · intro tag own
      exact none _ (.inl ⟨tag, own, rfl⟩)
    · intro effect listed tag named
      exact none _ (.inr ⟨effect, listed, .inl ⟨tag, named, rfl⟩⟩)
    · intro effect listed tag named
      exact none _ (.inr ⟨effect, listed, .inr (.inl ⟨tag, named, rfl⟩)⟩)
    · intro mentioned effect listed condition gated lacks
      exact none _ (.inr ⟨effect, listed, .inr (.inr ⟨mentioned, condition, gated, lacks, rfl⟩)⟩)
  · rintro phrased note (⟨tag, own, _⟩ | ⟨effect, listed, gap⟩)
    · exact phrased.trigger tag own
    · rcases gap with ⟨tag, named, _⟩ | ⟨tag, named, _⟩ | ⟨mentioned, condition, gated, lacks, _⟩
      · exact phrased.targets effect listed tag named
      · exact phrased.modifiers effect listed tag named
      · exact phrased.conditions mentioned effect listed condition gated lacks

end Ability

namespace Describe

/-! ## Notes of phrases -/

theorem notes_triggerPhrase (trigger : Option Trigger) : (triggerPhrase trigger).notes =
    (trigger.bind OpenTag.raw?).toList.map .triggerWithoutPhrase := by
  match trigger with
  | none | some (.known _) | some (.unknown _) => rfl

theorem notes_targetPhrase (target : Target) :
    (targetPhrase target).notes = target.raw?.toList.map .targetWithoutPhrase := by
  cases target <;> rfl

theorem notes_modifierPhrase (modifier : AttackModifier) (singular : Bool) :
    (modifierPhrase modifier singular).notes =
      modifier.raw?.toList.map .modifierWithoutPhrase := by
  cases modifier <;> rfl

theorem notes_conditionPhrase (condition : Option Condition) : (conditionPhrase condition).notes =
    (condition.filter fun condition => condition.LacksNumber).toList.map
      (.conditionWithoutNumber ·.kind) := by
  cases condition with
  | none => rfl
  | some condition =>
    cases numeric : condition.kind.isNumeric with
    | false =>
      obtain ⟨text, phrase, _⟩ := Condition.exists_plainPhrase numeric
      simp [phrase, Condition.lacksNumber_iff, numeric]
    | true =>
      obtain ⟨clause, phrase, _⟩ := Condition.exists_numericPhrase numeric
      cases counted : condition.number? <;>
        simp [phrase, numericPhrase, Option.filter, Condition.lacksNumber_iff, numeric, counted]

/-! ## Notes of clauses -/

section

attribute [local simp] notes_targetPhrase notes_modifierPhrase Effect.rawTargets
  Effect.rawModifier? Effect.namedTargets Effect.modifier? Effect.kind Deed.act? Deed.kind
  EffectKind.namesTarget Act.recipient? Act.modifier?

/-- What a clause notes before its condition is what it names without a phrase. -/
theorem notes_deedFragments (effect : Effect) :
    (deedFragments effect.target effect.deed).notes =
      effect.rawTargets.map .targetWithoutPhrase ++
        effect.rawModifier?.toList.map .modifierWithoutPhrase := by
  obtain ⟨target, deed, condition⟩ := effect
  cases deed with
  | standing change duration =>
    cases change <;> simp [deedFragments, standingFragments, Standing.kind]
  | act what duration =>
    cases what with
    | dealDamage amount piercing => cases amount <;> simp [deedFragments, actFragments, Act.kind]
    | heal amount => cases amount <;> simp [deedFragments, actFragments, Act.kind]
    | removeCounter counter count =>
      cases counter <;> cases count <;> simp [deedFragments, actFragments, Act.kind]
    | swap what => cases what <;> simp [deedFragments, actFragments, Act.kind]
    | _ => simp [deedFragments, actFragments, Act.kind]

end

theorem notes_clause_eq_gaps (config : Config) (effect : Effect) :
    (clause config.conditions effect).notes = effect.gaps config := by
  rw [notes_clause, notes_deedFragments, notes_conditionPhrase, Effect.gaps, Effect.numberless?]
  cases config.conditions <;> rfl

theorem notes_spoken (config : Config) (ability : Ability) :
    (spoken config ability).notes = ability.gaps config := by
  simp only [spoken, Logged.notes_bind, Logged.notes_mapM, Logged.notes_pure, List.append_nil,
    notes_triggerPhrase, notes_clause_eq_gaps, Ability.gaps]

/-! ## Notes of descriptions -/

/-- A description notes the gaps that its text comes to, in order, for debugging, and at last its
text under the name of the ability, for tracing. So it notes nothing for debugging exactly if there
is a phrase for everything. -/
theorem describe_notes (config : Config) (ability : Ability) :
    let text := (describe config ability).value
    let notes := (describe config ability).notes
    notes = ability.gaps config ++ [.described ability.name text] ∧
      (∀ note ∈ ability.gaps config, note.level = .debug) ∧
      (Note.described ability.name text).level = .trace ∧
      ((∀ note ∈ notes, note.level ≠ .debug) ↔ ability.Phrased config) := by
  intro text notes
  have whole : notes = ability.gaps config ++ [.described ability.name text] := by
    rw [← notes_spoken]
    exact notes_describe config ability
  refine ⟨whole, fun note member => Ability.level_of_mem_gaps member, rfl, ?_⟩
  rw [← Ability.gaps_eq_nil_iff, whole]
  constructor
  · intro quiet
    by_contra some
    obtain ⟨note, member⟩ := List.exists_mem_of_ne_nil _ some
    exact quiet note (List.mem_append_left _ member) (Ability.level_of_mem_gaps member)
  · intro none note member
    rw [none, List.nil_append, List.mem_singleton] at member
    rw [member]
    exact (by decide : Level.trace ≠ Level.debug)

/-- A trigger, a target and a condition with a counter for its number leave gaps, noted in this
order. A condition with a number leaves none. -/
theorem wisp_notes :
    let thrown := (Effect.destroy (.known .attacker)).gatedBy (.healthBelow 3)
    let wisp : Ability :=
      { name := "Wisp"
        trigger := some (.unknown "OnEclipse")
        effects := [(Effect.modifyStats (.unknown "moon") .attack 2).gatedBy
          { kind := .healthBelow, operand := some (.counter (.unknown "dusk")) }, thrown] }
    let calm : Ability := { name := "Calm", effects := [thrown] }
    (describe .canonical wisp).notes =
      [.triggerWithoutPhrase "OnEclipse", .targetWithoutPhrase "moon",
        .conditionWithoutNumber .healthBelow,
        .described "Wisp" "moon get +2 ATK if health-below and destroy attacker if HP < 3"] ∧
      ¬ wisp.Phrased .canonical ∧ calm.Phrased .canonical ∧
      ∀ note ∈ (describe .canonical calm).notes, note.level ≠ .debug := by
  intro thrown wisp calm
  have text : (describe .canonical wisp).value =
      "moon get +2 ATK if health-below and destroy attacker if HP < 3" := by decide +kernel
  have gaps : wisp.gaps .canonical = [.triggerWithoutPhrase "OnEclipse",
      .targetWithoutPhrase "moon", .conditionWithoutNumber .healthBelow] := by decide +kernel
  obtain ⟨notes, _, _, quiet⟩ := describe_notes .canonical wisp
  have phrased : calm.Phrased .canonical :=
    (Ability.gaps_eq_nil_iff .canonical calm).1 (by decide +kernel)
  rw [gaps, text] at notes
  refine ⟨notes, fun silent => ?_, phrased, (describe_notes .canonical calm).2.2.2.2 phrased⟩
  have loud := quiet.2 silent (.conditionWithoutNumber .healthBelow) (by simp [notes])
  exact loud rfl

end Describe

end RulesText
