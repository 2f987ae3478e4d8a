import RulesText.Proofs.RoundTrip
import RulesText.Proofs.Yields

/-!
# What is read is read again

A text may spell a value in many ways: with its members in any order or by position, with tags as
keys, with nulls and with defaults written out. Whichever it is, a reader takes a known word for
itself before it keeps an unknown tag. So the value is settled, and what is written for it is read
as that value again.
-/

namespace RulesText
open Format Json

/-! ## What is read is settled -/

theorem word?_unfound {κ : Type} [Vocabulary κ] {doc : Doc} {tag : String}
    (unfound : (word? doc : Option κ) = none) (text : string? doc = some tag) :
    (Vocabulary.find? tag : Option κ) = none := by
  unfold string? at text
  split at text
  · unfold word? at unfound
    simpa [text] using unfound
  · cases text

theorem tag?_cases {κ : Type} [Vocabulary κ] {doc : Doc} {tag : OpenTag κ}
    (read : tag? doc = some tag) :
    (∃ w, tag = .known w) ∨ ∃ text, tag = .unknown text ∧ string? doc = some text ∧
      (Vocabulary.find? text : Option κ) = none := by
  unfold tag? at read
  cases word : (word? doc : Option κ) with
  | some w =>
    rw [word] at read
    cases read
    exact .inl ⟨w, rfl⟩
  | none =>
    rw [word] at read
    cases text : string? doc with
    | none =>
      rw [text] at read
      cases read
    | some text' =>
      rw [text] at read
      cases read
      exact .inr ⟨text', rfl, rfl, word?_unfound word text⟩

/-- A tag is kept as unknown only if no known word is spelled like it. -/
theorem yields_openTag {κ : Type} [Vocabulary κ] (type : String) :
    Reader.Yields (openTag type : Reader (OpenTag κ)) OpenTag.Settled := by
  refine yields_alternatives fun doc tag read => ?_
  rcases tag?_cases read with ⟨w, rfl⟩ | ⟨text, rfl, _, unfound⟩
  · exact trivial
  · exact unfound

theorem yields_counter : Counter.read.Yields OpenTag.Settled := yields_openTag _

theorem yields_target : Target.read.Yields OpenTag.Settled := yields_openTag _

theorem yields_trigger : Trigger.read.Yields OpenTag.Settled := yields_openTag _

theorem yields_modifier : AttackModifier.read.Yields OpenTag.Settled := yields_openTag _

/-- A tag is kept as a counter only if no affinity is spelled like it. -/
theorem yields_operand : Operand.read.Yields Operand.Settled := by
  refine yields_alternatives fun doc operand read => ?_
  unfold Operand.ofDoc? at read
  rw [Option.or_eq_some_iff, Option.or_eq_some_iff, Option.or_eq_none_iff] at read
  rcases read with (number | ⟨_, affinity⟩) | ⟨⟨_, affinity⟩, counter⟩
  · obtain ⟨value, _, rfl⟩ := Option.map_eq_some_iff.1 number
    exact trivial
  · obtain ⟨element, _, rfl⟩ := Option.map_eq_some_iff.1 affinity
    exact trivial
  · obtain ⟨tag, read, rfl⟩ := Option.map_eq_some_iff.1 counter
    -- The affinities were tried on the same string before the counters.
    rcases tag?_cases read with ⟨w, rfl⟩ | ⟨text, rfl, spelled, unfound⟩
    · exact trivial
    · exact ⟨word?_unfound (Option.map_eq_none_iff.1 affinity) spelled, unfound⟩

theorem yields_condition : Condition.read.Yields Condition.Settled := by
  refine Record.yields (.seq (.seq (.map ?_) (.optional "value" yields_operand)) (.any _))
  exact (Shape.Yields.any _).mono fun _ _ _ settled _ _ => settled

theorem yields_cost : Cost.read.Yields Cost.Settled := by
  refine yields_tagged _ fun kind => ?_
  cases kind with
  | removeCounter =>
    refine .seq (.map ?_) (.any _)
    exact (Shape.Yields.required "counter" yields_counter).mono
      fun _ settled _ _ => settled
  | nectar => exact .map ((Shape.Yields.any _).mono fun _ _ => trivial)
  | discard => exact .map ((Shape.Yields.any _).mono fun _ _ => trivial)
  | sacrifice => exact .map ((Shape.Yields.any _).mono fun _ _ => trivial)

theorem yields_standingShape (shape : Shape Standing) :
    (Effect.standingShape shape).Yields Effect.Settled := by
  refine .seq (.seq (.seq (.map ?_) (.any shape)) (.any _)) (.optional "condition" yields_condition)
  exact (Shape.Yields.required "target" yields_target).mono
    fun _ target _ _ _ _ _ condition => ⟨target, trivial, condition⟩

theorem yields_actShape {shape : Shape Act} (yields : shape.Yields Act.Settled) :
    (Effect.actShape shape).Yields Effect.Settled := by
  refine .seq (.seq (.seq (.map ?_) yields) (.any _)) (.optional "condition" yields_condition)
  exact (Shape.Yields.required "target" yields_target).mono
    fun _ target _ act _ _ _ condition => ⟨target, act, condition⟩

theorem yields_effect : Effect.read.Yields Effect.Settled := by
  refine yields_tagged _ fun kind => ?_
  cases kind with
  | modifyStats | immunity | damageReduction => exact yields_standingShape _
  | applyCounter =>
    have counter := Shape.Yields.required "counter" yields_counter
    exact yields_actShape (.seq (.map (counter.mono fun _ settled _ _ => settled)) (.any _))
  | removeCounter =>
    have counter := Shape.Yields.optional "counter" yields_counter
    exact yields_actShape (.seq (.map (counter.mono fun _ settled _ _ => settled)) (.any _))
  | attackModification =>
    exact yields_actShape (.map (.required "modification" yields_modifier))
  | redirectDamage => exact yields_actShape (.map (.required "to" yields_target))
  | heal | drawCards | move | preventDamage | temporaryHealth | retaliation | swap =>
    exact yields_actShape (.map ((Shape.Yields.any _).mono fun _ _ => trivial))
  | dealDamage | cannotBeTargeted | gainResource | discard | summonToken =>
    exact yields_actShape (.seq (.map ((Shape.Yields.any _).mono fun _ _ _ _ => trivial)) (.any _))
  | searchDeck =>
    have count := (Shape.Yields.any (Shape.optional "value" uint32))
    exact yields_actShape
      (.seq (.seq (.map (count.mono fun _ _ _ _ _ _ => trivial)) (.any _)) (.any _))
  | destroy | returnToHand | copyAbility | nullify | removeSummoningSickness =>
    exact yields_actShape (.value trivial)

theorem yields_ability : Ability.read.Yields Ability.Settled := by
  have trigger := Shape.Yields.optional "trigger" yields_trigger
  have cost := Shape.Yields.optional "cost" yields_cost
  have effects : (Shape.defaulted "effects" (list Effect.read) []).Yields _ :=
    .defaulted "effects" yields_effect.list (by simp)
  refine Record.yields (.seq (.seq (.seq (.seq (.seq (.seq (.map ?_) (.any _)) trigger) cost)
    effects) (.any _)) (.any _))
  exact (Shape.Yields.any _).mono fun _ _ _ _ _ trigger _ cost _ effects _ _ _ _ =>
    ⟨trigger, cost, effects⟩

/-! ## What is read is read again -/

/-- Whatever is read from a text is settled, and it is read again from what is written for it, be
it on one line or laid out over lines. -/
structure Rereads {α : Type} (read : Reader α) (write : α → Json) (Settled : α → Prop) : Prop where
  settled : ∀ text value, read.ofText text = .ok value → Settled value
  compact : ∀ text value, read.ofText text = .ok value →
    read.ofText (write value).compact = .ok value
  pretty : ∀ text value, read.ofText text = .ok value →
    read.ofText (write value).pretty = .ok value

/-- What is read as its resolved form is read again if whatever is read is settled. -/
theorem rereads {α : Type} {read : Reader α} {write : α → Json} {resolve : α → α}
    {Settled : α → Prop} (yields : read.Yields Settled)
    (fixed : ∀ value, resolve value = value ↔ Settled value)
    (returns : ∀ value, Returns Doc.maxDepth read (write value) (resolve value)) :
    Rereads read write Settled := by
  have again : ∀ value, Settled value → Returns Doc.maxDepth read (write value) value := by
    intro value settled
    have same := returns value
    rwa [(fixed value).2 settled] at same
  refine ⟨fun text value done => yields.ofText done, fun text value done => ?_,
    fun text value done => ?_⟩
  · exact (again value (yields.ofText done)).ofText.1
  · exact (again value (yields.ofText done)).ofText.2

/-- Whatever a text spells can be written and read again: abilities, effects, costs, conditions,
operands, targets, triggers, counters and attack modifiers. -/
theorem reads_rereads :
    Rereads Ability.read Ability.toJson Ability.Settled ∧
    Rereads Effect.read Effect.toJson Effect.Settled ∧
    Rereads Cost.read Cost.toJson Cost.Settled ∧
    Rereads Condition.read Condition.toJson Condition.Settled ∧
    Rereads Operand.read Operand.toJson Operand.Settled ∧
    Rereads Target.read OpenTag.toJson OpenTag.Settled ∧
    Rereads Trigger.read OpenTag.toJson OpenTag.Settled ∧
    Rereads Counter.read OpenTag.toJson OpenTag.Settled ∧
    Rereads AttackModifier.read OpenTag.toJson OpenTag.Settled := by
  refine ⟨?_, ?_, ?_, ?_, ?_, ?_, ?_, ?_, ?_⟩
  · exact rereads yields_ability Ability.resolve_eq_self_iff fun ability => returns_ability ability
  · exact rereads yields_effect Effect.resolve_eq_self_iff fun effect => returns_effect effect
  · exact rereads yields_cost Cost.resolve_eq_self_iff fun cost => returns_cost cost
  · exact rereads yields_condition Condition.resolve_eq_self_iff
      fun condition => returns_condition condition
  · exact rereads yields_operand Operand.resolve_eq_self_iff fun operand => returns_operand operand
  · exact rereads yields_target OpenTag.resolve_eq_self_iff fun tag => returns_openTag _ tag
  · exact rereads yields_trigger OpenTag.resolve_eq_self_iff fun tag => returns_openTag _ tag
  · exact rereads yields_counter OpenTag.resolve_eq_self_iff fun tag => returns_openTag _ tag
  · exact rereads yields_modifier OpenTag.resolve_eq_self_iff fun tag => returns_openTag _ tag

/-- An effect that is spelled by position, with its target as a key. -/
theorem burning_rereads :
    Effect.read.ofText "[\"apply-counter\",\x7b\"self\":null\x7d,\"burn\",2]" =
        .ok (.applyCounter (.known .itself) (.known .burn) 2) ∧
      Effect.read.ofText (Effect.applyCounter (.known .itself) (.known .burn) 2).toJson.compact =
        .ok (.applyCounter (.known .itself) (.known .burn) 2) := by
  have done : Effect.read.ofText "[\"apply-counter\",\x7b\"self\":null\x7d,\"burn\",2]" =
      .ok (.applyCounter (.known .itself) (.known .burn) 2) :=
    eq_ok_of_toOption (by decide +kernel)
  exact ⟨done, reads_rereads.2.1.compact _ _ done⟩

end RulesText
