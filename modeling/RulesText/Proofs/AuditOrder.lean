import RulesText.Proofs.Findings

/-!
# The order of findings

An audit goes through an ability once: first the ability as such, then its effects one after the
other, and its description last. What it finds about an effect depends on the effect and its
position only, so the findings about two lists of effects are put one behind the other, with the
positions of the second list shifted. A description that is put in place of a stale one is not
looked at by anything but the audit of the description, which finds nothing more.
-/

namespace RulesText
open Describe

namespace Finding

/-- Whether a finding says that the description is stale. -/
def isStale : Finding → Bool
  | .staleDescription _ => true
  | _ => false

/-- The finding with the position of its effect so much further back. -/
def shifted (count : Nat) : Finding → Finding
  | .ignoredComparison effect => .ignoredComparison (count + effect)
  | .missingConditionValue effect => .missingConditionValue (count + effect)
  | finding => finding

/-- Which of two findings about effects comes first: the one about the earlier effect, and of the
two about one effect the ignored comparison. -/
inductive Before : Finding → Finding → Prop
  | earlier {finding other : Finding} {position later : Nat}
    (about : finding.effect? = some position) (about' : other.effect? = some later)
    (less : position < later) : Before finding other
  | same (position : Nat) : Before (.ignoredComparison position) (.missingConditionValue position)

theorem isStale_of_effect? {finding : Finding} {position : Nat}
    (about : finding.effect? = some position) : finding.isStale = false := by
  cases finding with
  | ignoredComparison _ | missingConditionValue _ => rfl
  | _ => cases about

theorem Before.ne {finding other : Finding} (before : Before finding other) : finding ≠ other := by
  rintro rfl
  cases before with
  | earlier about about' less =>
    obtain rfl := Option.some.inj (about.symm.trans about')
    exact Nat.lt_irrefl _ less

end Finding

namespace Ability

/-- What an audit finds about the effects. -/
def effectIssues (ability : Ability) : List Finding :=
  ability.audit.value.filter (·.effect?.isSome)

/-! ## Findings about effects -/

theorem effect?_effectFindings {start : Nat} {effects : List Effect} {finding : Finding}
    (found : finding ∈ effectFindings start effects) :
    ∃ position, finding.effect? = some position ∧ start ≤ position ∧
      position < start + effects.length := by
  obtain ⟨offset, condition, gated, own⟩ := mem_effectFindings_iff.1 found
  obtain ⟨effect, listed, _⟩ := Option.bind_eq_some_iff.1 gated
  obtain ⟨inside, _⟩ := List.getElem?_eq_some_iff.1 listed
  exact ⟨start + offset, effect?_conditionFindings own, by omega, by omega⟩

theorem pairwise_conditionFindings (position : Nat) (condition : Condition) :
    (conditionFindings position condition).Pairwise Finding.Before := by
  unfold conditionFindings
  split <;> split <;> simp [Finding.Before.same]

/-- What is found about an effect comes before what is found about those behind it. -/
theorem pairwise_effectFindings (start : Nat) (effects : List Effect) :
    (effectFindings start effects).Pairwise Finding.Before := by
  induction effects generalizing start with
  | nil => exact List.Pairwise.nil
  | cons effect effects ih =>
    have later {condition : Condition} : ∀ finding ∈ conditionFindings start condition,
        ∀ other ∈ effectFindings (start + 1) effects, finding.Before other := by
      intro finding found other found'
      obtain ⟨position, about, behind, _⟩ := effect?_effectFindings found'
      exact .earlier (effect?_conditionFindings found) about behind
    rw [effectFindings, List.pairwise_append]
    cases effect.condition with
    | none => exact ⟨List.Pairwise.nil, ih _, by simp⟩
    | some condition => exact ⟨pairwise_conditionFindings start condition, ih _, later⟩

theorem effectFindings_append (start : Nat) (front back : List Effect) :
    effectFindings start (front ++ back) =
      effectFindings start front ++ effectFindings (start + front.length) back := by
  induction front generalizing start with
  | nil => rfl
  | cons effect front ih =>
    have behind : start + (effect :: front).length = start + 1 + front.length := by
      rw [List.length_cons]
      omega
    rw [List.cons_append, effectFindings, effectFindings, ih, behind, List.append_assoc]

theorem conditionFindings_shifted (count position : Nat) (condition : Condition) :
    conditionFindings (count + position) condition =
      (conditionFindings position condition).map (Finding.shifted count) := by
  unfold conditionFindings
  split <;> split <;> rfl

theorem effectFindings_shifted (count start : Nat) (effects : List Effect) :
    effectFindings (count + start) effects =
      (effectFindings start effects).map (Finding.shifted count) := by
  induction effects generalizing start with
  | nil => rfl
  | cons effect effects ih =>
    rw [effectFindings, effectFindings, List.map_append, Nat.add_assoc, ih]
    cases effect.condition with
    | none => rfl
    | some condition => simp only [conditionFindings_shifted]

/-! ## The parts of an audit -/

theorem value_audit (ability : Ability) : ability.audit.value =
    ability.wholeFindings ++ effectFindings 0 ability.effects ++
      ability.descriptionFindings.value := rfl

theorem value_audit_withDescription (ability : Ability) (text : String) :
    (ability.withDescription text).audit.value =
      ability.wholeFindings ++ effectFindings 0 ability.effects ++
        (ability.withDescription text).descriptionFindings.value := rfl

theorem effectIssues_eq (ability : Ability) :
    ability.effectIssues = effectFindings 0 ability.effects := by
  have whole : ability.wholeFindings.filter (·.effect?.isSome) = [] :=
    List.filter_eq_nil_iff.2 fun finding found => by simp [effect?_wholeFindings found]
  have described : ability.descriptionFindings.value.filter (·.effect?.isSome) = [] :=
    List.filter_eq_nil_iff.2 fun finding found => by simp [effect?_descriptionFindings found]
  have own : (effectFindings 0 ability.effects).filter (·.effect?.isSome) =
      effectFindings 0 ability.effects := by
    refine List.filter_eq_self.2 fun finding found => ?_
    obtain ⟨position, about, _⟩ := effect?_effectFindings found
    simp [about]
  rw [effectIssues, value_audit, List.filter_append, List.filter_append, whole, described, own,
    List.nil_append, List.append_nil]

theorem wholeFindings_eq (ability : Ability) : ability.wholeFindings =
    (if ability.effects = [] then [.emptyEffects] else []) ++
      (if ability.perTurn = some 0 ∨ ability.perGame = some 0 then [.zeroUsageCap] else []) := by
  unfold wholeFindings doesSomething
  cases ability.effects <;> rfl

theorem isStale_wholeFindings {ability : Ability} {finding : Finding}
    (found : finding ∈ ability.wholeFindings) : finding.isStale = false := by
  simp only [wholeFindings_eq, List.mem_append, List.mem_ite_nil_right, List.mem_singleton] at found
  rcases found with ⟨_, rfl⟩ | ⟨_, rfl⟩
  · rfl
  · rfl

theorem value_descriptionFindings (ability : Ability) : ability.descriptionFindings.value =
    if ability.description = "" ∨ ability.description = (describe .canonical ability).value then []
    else [.staleDescription (describe .canonical ability).value] := by
  unfold descriptionFindings
  by_cases empty : ability.description = ""
  · simp only [empty, true_or, if_true, Logged.value_pure]
  · simp only [empty, false_or, if_false, Logged.value_bind, Logged.value_pure]

/-- The text of an ability does not depend on its description. -/
theorem describe_withDescription (how : Config) (ability : Ability) (text : String) :
    describe how (ability.withDescription text) = describe how ability := rfl

/-- The audit of the description finds at most that it is stale. -/
theorem descriptionFindings_cases (ability : Ability) : ability.descriptionFindings.value = [] ∨
    ∃ expected, ability.descriptionFindings.value = [.staleDescription expected] := by
  rw [value_descriptionFindings]
  split
  · exact .inl rfl
  · exact .inr ⟨_, rfl⟩

/-- A description that is the text of the ability, or empty, is not stale. -/
theorem descriptionFindings_described (ability : Ability) :
    (ability.withDescription (describe .canonical ability).value).descriptionFindings.value =
      [] := by
  rw [value_descriptionFindings, describe_withDescription]
  generalize (describe .canonical ability).value = text
  exact if_pos (.inr rfl)

theorem filter_isStale_audit (ability : Ability) :
    ability.audit.value.filter Finding.isStale = ability.descriptionFindings.value ∧
      ability.audit.value.filter (!·.isStale) =
        ability.wholeFindings ++ effectFindings 0 ability.effects := by
  have rest : ∀ finding ∈ ability.wholeFindings ++ effectFindings 0 ability.effects,
      finding.isStale = false := by
    intro finding found
    rcases List.mem_append.1 found with whole | own
    · exact isStale_wholeFindings whole
    · obtain ⟨position, about, _⟩ := effect?_effectFindings own
      exact Finding.isStale_of_effect? about
  have described : ∀ finding ∈ ability.descriptionFindings.value, finding.isStale = true := by
    rcases ability.descriptionFindings_cases with none | ⟨expected, one⟩
    · simp [none]
    · simp [one, Finding.isStale]
  rw [value_audit]
  generalize ability.wholeFindings ++ effectFindings 0 ability.effects = others at rest ⊢
  rw [List.filter_append, List.filter_append]
  constructor
  · rw [List.filter_eq_nil_iff.2 fun finding found => by simp [rest finding found],
      List.filter_eq_self.2 described, List.nil_append]
  · rw [List.filter_eq_self.2 fun finding found => by simp [rest finding found],
      List.filter_eq_nil_iff.2 fun finding found => by simp [described finding found],
      List.append_nil]

/-! ## The order of an audit -/

/-- The findings of an audit are, in order: that there is no effect, that a cap is zero, what is
odd about the effects, and at most once that the description is stale. Each finding about an effect
is there once, before those about later effects, and gives a position in the list of effects. The
findings about two lists of effects are those about the first and then those about the second,
further back by the length of the first. With its text for a description, an ability has the same
findings but for a stale description. -/
theorem audit_in_order (ability : Ability) :
    let findings := ability.audit.value
    let stale := findings.filter Finding.isStale
    (findings = (if ability.effects = [] then [.emptyEffects] else []) ++
        (if ability.perTurn = some 0 ∨ ability.perGame = some 0 then [.zeroUsageCap] else []) ++
          ability.effectIssues ++ stale ∧
      ability.effectIssues.Pairwise Finding.Before ∧ ability.effectIssues.Nodup ∧
      (∀ finding ∈ ability.effectIssues, ∃ position, finding.effect? = some position ∧
        position < ability.effects.length) ∧
      stale.length ≤ 1) ∧
    (∀ front back : Ability, ability.effects = front.effects ++ back.effects →
      ability.effectIssues = front.effectIssues ++
        back.effectIssues.map (Finding.shifted front.effects.length)) ∧
    (ability.withDescription (describe .canonical ability).value).audit.value =
      findings.filter (!·.isStale) := by
  intro findings stale
  obtain ⟨described, others⟩ := ability.filter_isStale_audit
  have ordered : ability.effectIssues.Pairwise Finding.Before := by
    rw [effectIssues_eq]
    exact pairwise_effectFindings 0 ability.effects
  refine ⟨⟨?_, ordered, ordered.imp Finding.Before.ne, fun finding found => ?_, ?_⟩,
    fun front back parts => ?_, ?_⟩
  · rw [← wholeFindings_eq, effectIssues_eq, show stale = _ from described]
    exact value_audit ability
  · rw [effectIssues_eq] at found
    obtain ⟨position, about, _, inside⟩ := effect?_effectFindings found
    exact ⟨position, about, by omega⟩
  · rw [show stale = _ from described]
    rcases ability.descriptionFindings_cases with none | ⟨expected, one⟩
    · simp [none]
    · simp [one]
  · rw [effectIssues_eq, effectIssues_eq, effectIssues_eq, parts, effectFindings_append,
      Nat.add_comm, effectFindings_shifted]
  · rw [value_audit_withDescription, descriptionFindings_described, List.append_nil, others]

/-- An unused cap, a comparison that no clause heeds, a condition with both faults, and a stale
description. -/
theorem tangle_in_order :
    let fire := (Condition.affinityMatches .fire).compared .less
    let costly : Condition := { kind := .costAbove, comparison := some .less }
    let front : Ability := { name := "front", effects := [(Effect.draw 1).gatedBy fire] }
    let back : Ability :=
      { name := "back", effects := [Effect.draw 2, (Effect.gainNectar 1).gatedBy costly] }
    let tangle : Ability :=
      { name := "tangle", description := "old", effects := front.effects ++ back.effects,
        perGame := some 0 }
    tangle.effectIssues =
        [.ignoredComparison 0, .ignoredComparison 2, .missingConditionValue 2] ∧
      (∃ position, Finding.effect? (.missingConditionValue 2) = some position ∧ position < 3) ∧
      (tangle.withDescription (describe .canonical tangle).value).audit.value =
        .zeroUsageCap :: tangle.effectIssues := by
  intro fire costly front back tangle
  obtain ⟨⟨_, _, _, inside, _⟩, parted, repaired⟩ := audit_in_order tangle
  have issues : tangle.effectIssues =
      [.ignoredComparison 0, .ignoredComparison 2, .missingConditionValue 2] := by
    rw [parted front back rfl]
    decide +kernel
  refine ⟨issues, inside _ (by simp [issues]), ?_⟩
  rw [repaired, issues]
  decide +kernel

end Ability

end RulesText
