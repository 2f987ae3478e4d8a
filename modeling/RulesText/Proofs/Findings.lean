import Mathlib.Tactic.TFAE
import RulesText.Ability.Audit
import RulesText.Proofs.Notes

/-!
# What an audit finds in conditions

The audit looks at the data of a condition and the rendering at its words, by tables of their own.
They agree: a comparison is found to be ignored exactly if no other comparison would change the
clause, and a number is found to be missing exactly if the clause falls back on the raw tag of the
condition, which is also when a note is made of it.
-/

namespace RulesText
open Describe Format Text

/-! ## Findings by position -/

namespace Ability

/-- The condition of the effect at a position, if there are such an effect and such a condition. -/
def conditionAt? (ability : Ability) (position : Nat) : Option Condition :=
  ability.effects[position]?.bind Effect.condition

theorem conditionAt?_eq_some_iff {ability : Ability} {position : Nat} {condition : Condition} :
    ability.conditionAt? position = some condition ↔
      ∃ effect, ability.effects[position]? = some effect ∧ effect.condition = some condition :=
  Option.bind_eq_some_iff

theorem mem_effectFindings_iff {start : Nat} {effects : List Effect} {finding : Finding} :
    finding ∈ effectFindings start effects ↔ ∃ offset condition,
      effects[offset]?.bind Effect.condition = some condition ∧
        finding ∈ conditionFindings (start + offset) condition := by
  induction effects generalizing start with
  | nil => simp [effectFindings]
  | cons effect effects ih =>
    rw [effectFindings, List.mem_append, ih]
    constructor
    · rintro (own | ⟨offset, condition, gated, found⟩)
      · cases gated : effect.condition with
        | none => simp [gated] at own
        | some condition => exact ⟨0, condition, gated, by simpa [gated] using own⟩
      · refine ⟨offset + 1, condition, gated, ?_⟩
        rwa [show start + (offset + 1) = start + 1 + offset by omega]
    · rintro ⟨offset, condition, gated, found⟩
      cases offset with
      | zero =>
        replace gated : effect.condition = some condition := gated
        exact .inl (by rwa [gated])
      | succ offset =>
        refine .inr ⟨offset, condition, gated, ?_⟩
        rwa [show start + 1 + offset = start + (offset + 1) by omega]

theorem effect?_conditionFindings {position : Nat} {condition : Condition} {finding : Finding}
    (found : finding ∈ conditionFindings position condition) :
    finding.effect? = some position := by
  simp only [conditionFindings, List.mem_append, List.mem_ite_nil_right, List.mem_singleton]
    at found
  rcases found with ⟨_, rfl⟩ | ⟨_, rfl⟩
  · rfl
  · rfl

theorem effect?_wholeFindings {ability : Ability} {finding : Finding}
    (found : finding ∈ ability.wholeFindings) : finding.effect? = none := by
  simp only [wholeFindings, List.mem_append, List.mem_ite_nil_left, List.mem_ite_nil_right,
    List.mem_singleton] at found
  rcases found with ⟨_, rfl⟩ | ⟨_, rfl⟩
  · rfl
  · rfl

theorem effect?_descriptionFindings {ability : Ability} {finding : Finding}
    (found : finding ∈ ability.descriptionFindings.value) : finding.effect? = none := by
  unfold descriptionFindings at found
  split at found
  · cases found
  · simp only [Logged.value_bind, Logged.value_pure, List.mem_ite_nil_left, List.mem_singleton]
      at found
    rw [found.2]
    rfl

/-- What an audit finds about an effect is what is odd about its condition. -/
theorem mem_audit_iff {ability : Ability} {finding : Finding} {position : Nat}
    (about : finding.effect? = some position) : finding ∈ ability.audit.value ↔
      ∃ condition, ability.conditionAt? position = some condition ∧
        finding ∈ conditionFindings position condition := by
  have parts : finding ∈ ability.audit.value ↔ finding ∈ effectFindings 0 ability.effects := by
    simp only [audit, Logged.value_bind, Logged.value_pure, List.mem_append]
    constructor
    · rintro ((whole | own) | described)
      · rw [effect?_wholeFindings whole] at about
        cases about
      · exact own
      · rw [effect?_descriptionFindings described] at about
        cases about
    · exact fun own => .inl (.inr own)
  rw [parts, mem_effectFindings_iff]
  constructor
  · rintro ⟨offset, condition, gated, found⟩
    rw [Nat.zero_add] at found
    obtain rfl : offset = position :=
      Option.some.inj ((effect?_conditionFindings found).symm.trans about)
    exact ⟨condition, gated, found⟩
  · rintro ⟨condition, gated, found⟩
    exact ⟨position, condition, gated, by rwa [Nat.zero_add]⟩

theorem ignoredComparison_mem_iff (position : Nat) (condition : Condition) :
    .ignoredComparison position ∈ conditionFindings position condition ↔
      condition.comparison ≠ none ∧ condition.effectiveComparison = none := by
  unfold conditionFindings
  cases condition.comparison <;> cases condition.effectiveComparison <;> simp

theorem missingConditionValue_mem_iff (position : Nat) (condition : Condition) :
    .missingConditionValue position ∈ conditionFindings position condition ↔
      condition.LacksNumber := by
  rw [Condition.lacksNumber_iff]
  unfold conditionFindings
  cases condition.kind.isNumeric <;> cases condition.number? <;> simp

end Ability

/-! ## Ignored comparisons -/

/-- An item may be changed where the change makes no difference. -/
theorem modify_map_eq {α β : Type} {items : List α} {position : Nat} {change : α → α} {f : α → β}
    (same : ∀ a, items[position]? = some a → f (change a) = f a) :
    (items.modify position change).map f = items.map f := by
  refine List.ext_getElem? fun i => ?_
  rw [List.getElem?_map, List.getElem?_map, List.getElem?_modify]
  cases found : items[i]? with
  | none => rfl
  | some a =>
    by_cases here : position = i
    · subst here
      simp [same a found]
    · simp [here]

namespace Ability

/-- The ability without the comparison in the condition of the effect at a position. -/
def withoutComparison (ability : Ability) (position : Nat) : Ability :=
  { ability with effects := ability.effects.modify position fun effect =>
      { effect with condition := effect.condition.map (Condition.comparing · none) } }

end Ability

namespace Describe

/-- Abilities that differ in their effects only are described alike if all clauses are alike. -/
theorem describe_congr {config : Config} {ability : Ability} {effects : List Effect}
    (alike : effects.map (clause config.conditions) =
      ability.effects.map (clause config.conditions)) :
    describe config { ability with effects } = describe config ability := by
  have clauses : effects.mapM (clause config.conditions) =
      ability.effects.mapM (clause config.conditions) := by
    have through (list : List Effect) : list.mapM (clause config.conditions) =
        (list.map (clause config.conditions)).mapM id := by rw [List.mapM_map, Function.id_comp]
    rw [through, through, alike]
  have spoken : spoken config { ability with effects } = spoken config ability := by
    simp only [Describe.spoken, clauses]
    rfl
  rw [describe, spoken, describe]

theorem clause_comparing {effect : Effect} {condition : Condition}
    (gated : effect.condition = some condition) (plain : ¬ condition.Compares)
    (comparison : Option Comparison) (withCondition : Bool) :
    clause withCondition { effect with condition := some (condition.comparing comparison) } =
      clause withCondition effect := by
  cases withCondition with
  | false => rfl
  | true =>
    simp only [clause, if_true, Condition.conditionPhrase_comparing plain, gated]
    rfl

end Describe

namespace Ability

/-- A comparison without an effect on its clause leaves no trace in the description. -/
theorem describe_withoutComparison {ability : Ability} {position : Nat} {condition : Condition}
    (gated : ability.conditionAt? position = some condition) (plain : ¬ condition.Compares)
    (config : Config) :
    describe config (ability.withoutComparison position) = describe config ability := by
  obtain ⟨effect, listed, own⟩ := conditionAt?_eq_some_iff.1 gated
  refine describe_congr (modify_map_eq fun other found => ?_)
  obtain rfl : effect = other := Option.some.inj (listed.symm.trans found)
  rw [own]
  exact clause_comparing own plain none config.conditions

/-- An audit finds the comparison of an effect ignored exactly if the effect has a condition with a
comparison and the clause of this condition would be the same with any other comparison or none;
that is, if its kind takes no comparison or its operand is no number. Without such a comparison the
ability is described as before. A comparison that is not found ignored is read: with some other one,
the clause of the effect says something else. -/
theorem ignoredComparison_audit (ability : Ability) (position : Nat) :
    (.ignoredComparison position ∈ ability.audit.value ↔
      ∃ condition, ability.conditionAt? position = some condition ∧
        condition.comparison ≠ none ∧ condition.DisregardsComparison) ∧
    (.ignoredComparison position ∈ ability.audit.value ↔
      ∃ condition, ability.conditionAt? position = some condition ∧
        condition.comparison ≠ none ∧ ¬ condition.Compares) ∧
    (.ignoredComparison position ∈ ability.audit.value → ∀ config,
      describe config (ability.withoutComparison position) = describe config ability) ∧
    (.ignoredComparison position ∉ ability.audit.value → ∀ effect condition,
      ability.effects[position]? = some effect → effect.condition = some condition →
        condition.comparison ≠ none → ∃ comparison,
          (effectText (effect.gatedBy (condition.comparing comparison))).value ≠
            (effectText effect).value) := by
  have found_iff : .ignoredComparison position ∈ ability.audit.value ↔
      ∃ condition, ability.conditionAt? position = some condition ∧
        condition.comparison ≠ none ∧ ¬ condition.Compares := by
    rw [mem_audit_iff rfl]
    refine exists_congr fun condition => and_congr_right fun _ => ?_
    rw [ignoredComparison_mem_iff, Condition.effectiveComparison_eq_none_iff]
    exact and_congr_right fun compared => or_iff_left compared
  refine ⟨?_, found_iff, fun found config => ?_,
    fun unfound effect condition listed gated compared => ?_⟩
  · simpa only [Condition.disregardsComparison_iff] using found_iff
  · obtain ⟨condition, gated, _, plain⟩ := found_iff.1 found
    exact describe_withoutComparison gated plain config
  · have compares : condition.Compares := by
      by_contra plain
      exact unfound (found_iff.2
        ⟨condition, conditionAt?_eq_some_iff.2 ⟨effect, listed, gated⟩, compared, plain⟩)
    by_contra! alike
    have same := (alike (some .equal)).trans (alike (some .less)).symm
    exact Condition.words_compared_ne compares
      ((clause_eq_iff_of_condition effect (some _) (some _)).1 same)

end Ability

/-! ## Missing numbers -/

namespace Describe

theorem mem_notes_clause_iff {effect : Effect} {kind : ConditionKind} :
    .conditionWithoutNumber kind ∈ (clause true effect).notes ↔
      ∃ condition, effect.condition = some condition ∧ condition.LacksNumber ∧
        kind = condition.kind := by
  have noted : (clause true effect).notes = effect.gaps .canonical :=
    notes_clause_eq_gaps .canonical effect
  simp [noted, Effect.mem_gaps_iff, Config.canonical, eq_comm]

/-- No number is missed where conditions are not mentioned. -/
theorem notMem_gaps {config : Config} (unmentioned : config.conditions = false) (effect : Effect)
    (kind : ConditionKind) : .conditionWithoutNumber kind ∉ effect.gaps config := by
  simp [Effect.mem_gaps_iff, unmentioned]

theorem notMem_notes_ungated (effect : Effect) (kind : ConditionKind) :
    .conditionWithoutNumber kind ∉ (clause false effect).notes := by
  rw [notes_clause_eq_gaps { conditions := false } effect]
  exact notMem_gaps rfl effect kind

theorem notMem_notes_describe {config : Config} (unmentioned : config.conditions = false)
    (ability : Ability) (kind : ConditionKind) :
    .conditionWithoutNumber kind ∉ (describe config ability).notes := by
  rw [notes_describe, notes_spoken]
  simp [Ability.mem_gaps_iff, notMem_gaps unmentioned]

end Describe

namespace Ability

/-- These are one and the same: an audit finds the number of an effect missing; the effect has a
condition of a numeric kind whose operand is no number; it has a condition whose clause is the raw
tag of its kind; the rendering of the effect notes that this condition has no number, or that any
has none. Where conditions are not mentioned there is no such note. -/
theorem missingConditionValue_audit (ability : Ability) (position : Nat) :
    [.missingConditionValue position ∈ ability.audit.value,
      ∃ condition, ability.conditionAt? position = some condition ∧ condition.LacksNumber,
      ∃ condition, ability.conditionAt? position = some condition ∧
        (conditionPhrase (some condition)).value = "if " ++ condition.kind.spelling,
      ∃ effect condition, ability.effects[position]? = some effect ∧
        effect.condition = some condition ∧
          ∃ note ∈ (clause true effect).notes, note.SaysNoNumber condition.kind,
      ∃ effect, ability.effects[position]? = some effect ∧
        ∃ note ∈ (clause true effect).notes, ∃ kind, note.SaysNoNumber kind].TFAE ∧
    (∀ effect, ∀ note ∈ (clause false effect).notes, ∀ kind, ¬ note.SaysNoNumber kind) ∧
    ∀ config : Config, config.conditions = false →
      ∀ note ∈ (describe config ability).notes, ∀ kind, ¬ note.SaysNoNumber kind := by
  refine ⟨?_, fun effect note noted kind said => ?_,
    fun config unmentioned note noted kind said => ?_⟩
  · tfae_have 1 ↔ 2 := by
      rw [mem_audit_iff rfl]
      exact exists_congr fun condition =>
        and_congr_right fun _ => missingConditionValue_mem_iff position condition
    tfae_have 2 ↔ 3 :=
      exists_congr fun condition =>
        and_congr_right fun _ => (Condition.value_conditionPhrase_eq_iff condition).symm
    tfae_have 2 → 4 := by
      rintro ⟨condition, gated, lacks⟩
      obtain ⟨effect, listed, own⟩ := conditionAt?_eq_some_iff.1 gated
      have noted := mem_notes_clause_iff.2 ⟨condition, own, lacks, rfl⟩
      exact ⟨effect, condition, listed, own, _, noted, (Note.saysNoNumber_iff _ _).2 rfl⟩
    tfae_have 4 → 5 := by
      rintro ⟨effect, condition, listed, _, note, noted, said⟩
      exact ⟨effect, listed, note, noted, condition.kind, said⟩
    tfae_have 5 → 2 := by
      rintro ⟨effect, listed, note, noted, kind, said⟩
      obtain rfl := (Note.saysNoNumber_iff note kind).1 said
      obtain ⟨condition, own, lacks, _⟩ := mem_notes_clause_iff.1 noted
      exact ⟨condition, conditionAt?_eq_some_iff.2 ⟨effect, listed, own⟩, lacks⟩
    tfae_finish
  · obtain rfl := (Note.saysNoNumber_iff note kind).1 said
    exact notMem_notes_ungated effect kind noted
  · obtain rfl := (Note.saysNoNumber_iff note kind).1 said
    exact notMem_notes_describe unmentioned ability kind noted

end Ability

end RulesText
