import RulesText.Proofs.Clauses

/-!
# The clauses of conditions

Which conditions say how they compare, and which fall back on their raw tag. A condition whose kind
takes a comparison and which has a number shows its comparison as a word between two parts that do
not depend on it; no other clause changes with the comparison. A numeric condition without a number
is the only one that is called by its tag, and the only one of which a note is made.
-/

namespace RulesText
open Describe Format Text

/-! ## Clauses that compare -/

namespace Condition

/-- The condition with a comparison or without one. -/
def comparing (condition : Condition) (comparison : Option Comparison) : Condition :=
  { condition with comparison }

/-- Whether the clause of a condition stays the same whatever comparison stands in it. -/
def DisregardsComparison (condition : Condition) : Prop :=
  ∀ comparison, (conditionPhrase (some (condition.comparing comparison))).value =
    (conditionPhrase (some condition)).value

/-- Whether the clause of a condition says how it compares: its kind takes a comparison, and there
is a number to compare with. -/
def Compares (condition : Condition) : Prop :=
  condition.kind.takesComparison = true ∧ ∃ number, condition.operand = some (.number number)

theorem effectiveComparison_eq_none_iff (condition : Condition) :
    condition.effectiveComparison = none ↔ ¬ condition.Compares ∨ condition.comparison = none := by
  unfold effectiveComparison Compares
  simp only [← number?_eq_some_iff]
  cases condition.kind.takesComparison <;> cases condition.number? <;> simp

theorem effectiveComparison_of_compares {condition : Condition} (compares : condition.Compares) :
    condition.effectiveComparison = condition.comparison := by
  obtain ⟨takes, number, counted⟩ := compares
  simp [effectiveComparison, takes, number?_eq_some_iff.2 counted]

/-- A condition that says how it compares names what it compares. -/
theorem exists_subject {kind : ConditionKind} (takes : kind.takesComparison = true) :
    ∃ subject, ∀ condition : Condition, condition.kind = kind →
      conditionPhrase (some condition) = comparisonPhrase condition subject := by
  cases kind with
  | turnCount => exact ⟨"turn", fun condition same => by simp only [conditionPhrase, same]⟩
  | unitsOnField =>
    exact ⟨"units on field", fun condition same => by simp only [conditionPhrase, same]⟩
  | resourceAvailable =>
    exact ⟨"nectar", fun condition same => by simp only [conditionPhrase, same]⟩
  | _ => cases takes

/-- The clause of a condition that does not compare is the same for every comparison, and so are
its notes. -/
theorem conditionPhrase_comparing {condition : Condition} (plain : ¬ condition.Compares)
    (comparison : Option Comparison) :
    conditionPhrase (some (condition.comparing comparison)) = conditionPhrase (some condition) := by
  by_cases takes : condition.kind.takesComparison = true
  · obtain ⟨subject, phrase⟩ := exists_subject takes
    have numberless : condition.number? = none :=
      number?_eq_none_iff.2 fun number counted => plain ⟨takes, number, counted⟩
    have numberless' : (condition.comparing comparison).number? = none := numberless
    rw [phrase _ rfl, phrase (condition.comparing comparison) rfl]
    simp only [comparisonPhrase, numericPhrase, numberless, numberless']
    rfl
  · obtain ⟨kind, operand, _⟩ := condition
    cases kind <;> first | rfl | exact absurd rfl takes

theorem words_symbol (comparison : Comparison) :
    words comparison.symbol.toList = [comparison.symbol.toList] := by
  cases comparison <;> decide

/-- The comparison is a word of the clause, and the words around it do not depend on it. -/
theorem words_conditionPhrase_of_compares {condition : Condition} (compares : condition.Compares) :
    ∃ front back, ∀ comparison,
      words (conditionPhrase (some (condition.compared comparison))).value.toList =
        front ++ comparison.symbol.toList :: back := by
  obtain ⟨takes, number, counted⟩ := compares
  obtain ⟨subject, phrase⟩ := exists_subject takes
  refine ⟨words ("if " ++ subject).toList, words (toString number.toInt).toList,
    fun comparison => ?_⟩
  have effective : (condition.compared comparison).effectiveComparison = some comparison :=
    effectiveComparison_of_compares ⟨takes, number, counted⟩
  have counted' : (condition.compared comparison).number? = some number :=
    number?_eq_some_iff.2 counted
  rw [phrase (condition.compared comparison) rfl, comparisonPhrase, numericPhrase, effective,
    counted', Option.getD_some, Logged.value_pure, words_append_space, words_append_space,
    words_symbol, List.append_assoc, List.singleton_append]

theorem words_compared_ne {condition : Condition} (compares : condition.Compares) :
    words (conditionPhrase (some (condition.compared .equal))).value.toList ≠
      words (conditionPhrase (some (condition.compared .less))).value.toList := by
  obtain ⟨front, back, said⟩ := words_conditionPhrase_of_compares compares
  rw [said, said]
  intro same
  have symbols := (List.cons.inj (List.append_cancel_left same)).1
  revert symbols
  decide

theorem disregardsComparison_iff (condition : Condition) :
    condition.DisregardsComparison ↔ ¬ condition.Compares := by
  constructor
  · intro disregards compares
    have same := (disregards (some .equal)).trans (disregards (some .less)).symm
    exact words_compared_ne compares (congrArg (fun text : String => words text.toList) same)
  · intro plain comparison
    rw [conditionPhrase_comparing plain]

/-! ## Clauses without a number -/

/-- Whether a condition compares with a number that it does not have: it has no operand, or one that
is no number. -/
def LacksNumber (condition : Condition) : Prop :=
  condition.kind.isNumeric = true ∧ ∀ number, condition.operand ≠ some (.number number)

theorem lacksNumber_iff (condition : Condition) :
    condition.LacksNumber ↔ condition.kind.isNumeric = true ∧ condition.number? = none :=
  and_congr_right fun _ => number?_eq_none_iff.symm

instance : DecidablePred LacksNumber :=
  fun condition => decidable_of_iff _ (lacksNumber_iff condition).symm

/-- A numeric condition has a clause for every number, and none of them is like the clause that it
has without a number. -/
theorem exists_numericPhrase {condition : Condition} (numeric : condition.kind.isNumeric = true) :
    ∃ clause, conditionPhrase (some condition) = numericPhrase condition clause ∧
      ∀ number, clause number ≠ "if " ++ condition.kind.spelling := by
  obtain ⟨kind, operand, comparison⟩ := condition
  -- The clauses differ from the raw tag at its first hyphen or before.
  cases kind with
  | healthBelow | healthAbove | costBelow =>
    exact ⟨_, rfl, fun number => by simp [← String.toList_inj, ConditionKind.spelling]⟩
  | costAbove =>
    refine ⟨fun number => "if Cost " ++ number ++ "+", rfl, fun number => ?_⟩
    simp [← String.toList_inj, ConditionKind.spelling]
  | turnCount | unitsOnField | resourceAvailable =>
    exact ⟨_, rfl, fun number => by simp [← String.toList_inj, ConditionKind.spelling]⟩
  | hasCounter | affinityMatches | isDamaged | isWilting => cases numeric

/-- Every other condition has a clause that is not like that one, and notes nothing. -/
theorem exists_plainPhrase {condition : Condition} (plain : condition.kind.isNumeric = false) :
    ∃ text, conditionPhrase (some condition) = pure text ∧
      text ≠ "if " ++ condition.kind.spelling := by
  obtain ⟨kind, operand, comparison⟩ := condition
  cases kind with
  | hasCounter =>
    match operand with
    | some (.counter counter) =>
      exact ⟨_, rfl, by simp [← String.toList_inj, ConditionKind.spelling]⟩
    | none | some (.number _) | some (.affinity _) =>
      exact ⟨_, rfl, by simp [← String.toList_inj, ConditionKind.spelling]⟩
  | affinityMatches =>
    match operand with
    | some (.affinity element) =>
      refine ⟨_, rfl, ?_⟩
      cases element <;>
        simp [← String.toList_inj, ConditionKind.spelling, Affinity.displayName]
    | none | some (.number _) | some (.counter _) =>
      exact ⟨_, rfl, by simp [← String.toList_inj, ConditionKind.spelling]⟩
  | isDamaged | isWilting =>
    exact ⟨_, rfl, by simp [← String.toList_inj, ConditionKind.spelling]⟩
  | _ => cases plain

theorem value_conditionPhrase_eq_iff (condition : Condition) :
    (conditionPhrase (some condition)).value = "if " ++ condition.kind.spelling ↔
      condition.LacksNumber := by
  rw [lacksNumber_iff]
  cases numeric : condition.kind.isNumeric with
  | false =>
    obtain ⟨text, phrase, other⟩ := exists_plainPhrase numeric
    simp [phrase, other]
  | true =>
    obtain ⟨clause, phrase, other⟩ := exists_numericPhrase numeric
    cases counted : condition.number? <;> simp [phrase, numericPhrase, counted, other]

end Condition

/-! ## The wording of the note -/

namespace Note

/-- Whether a note says, for debugging, that a condition of a numeric kind has no number. -/
def SaysNoNumber (note : Note) (kind : ConditionKind) : Prop :=
  note.level = .debug ∧
    note.message = "numeric condition " ++ ticked kind.spelling ++ " has no number, using raw tag"

/-- The wording tells this note from all others. -/
theorem saysNoNumber_iff (note : Note) (kind : ConditionKind) :
    note.SaysNoNumber kind ↔ note = .conditionWithoutNumber kind := by
  constructor
  · rintro ⟨_, worded⟩
    unfold message at worded
    cases note with
    | conditionWithoutNumber other =>
      have quoted : ticked other.spelling = ticked kind.spelling :=
        (String.append_right_inj _).1 ((String.append_left_inj _).1 worded)
      have tags : other.spelling = kind.spelling :=
        (String.append_right_inj _).1 ((String.append_left_inj _).1 quoted)
      rw [show other = kind from Vocabulary.spelling_injective tags]
    | _ =>
      have start := congrArg (fun text : String => text.toList.take 2) worded
      simp at start
  · rintro rfl
    exact ⟨rfl, rfl⟩

end Note

end RulesText
