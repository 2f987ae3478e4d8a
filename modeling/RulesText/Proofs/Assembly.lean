import RulesText.Proofs.Clauses
import RulesText.Proofs.Numerals
import RulesText.Proofs.SilentEffects
import RulesText.Proofs.Tidy

/-!
# Sentences and their parts

Where every effect has something to say, the clauses come through the assembly of the sentence as
they are: the list of clauses is tidy as it stands, so collapsing the sentence changes nothing but
the cost, whose counter may be a raw tag with blanks of its own.
-/

namespace RulesText
open Describe Text

/-- What there may be to say about an ability, in order: its trigger, its cost, its effects, its cap
per turn and its cap per game. What there is nothing to say about is an empty part. -/
def Ability.parts (ability : Ability) : List String :=
  [(triggerPhrase ability.trigger).value, collapse (costPhrase ability.cost),
    clauses (ability.effects.map fun effect => (effectText effect).value),
    ability.perTurn.elim "" fun uses => "(" ++ numeral uses ++ "x per turn)",
    ability.perGame.elim "" fun _ => "(once per game)"]

namespace Describe

/-! ## Parts that are collapsed -/

theorem triggerPhrase_collapsed (trigger : Option Trigger) :
    collapse (triggerPhrase trigger).value = (triggerPhrase trigger).value := by
  match trigger with
  | none | some (.unknown _) => rfl
  | some (.known event) => cases event <;> decide

theorem perTurn_collapsed (perTurn : Option UInt32) :
    collapse (perTurn.elim "" fun uses => "(" ++ numeral uses ++ "x per turn)") =
      perTurn.elim "" fun uses => "(" ++ numeral uses ++ "x per turn)" := by
  cases perTurn with
  | none => rfl
  | some uses =>
    apply Tidy.collapse_eq
    have number : Tidy (numeral uses).toList := by
      rw [toList_numeral]
      exact (solid_toDigits uses.toNat).tidy
    have turn : Tidy "per turn)".toList := tidy_of_collapsed (by decide) (by decide)
    have times : Tidy (['('] ++ ((numeral uses).toList ++ ['x'])) := by
      apply Tidy.visible_append (List.forall_mem_singleton.2 (by decide))
      exact number.append_visible (List.forall_mem_singleton.2 (by decide))
    have whole := times.append_space turn
    simpa using whole

theorem perGame_collapsed (perGame : Option UInt32) :
    collapse (perGame.elim "" fun _ => "(once per game)") =
      perGame.elim "" fun _ => "(once per game)" := by
  cases perGame with
  | none => rfl
  | some uses =>
    show collapse "(once per game)" = "(once per game)"
    decide

/-- Clauses that all have something to say are joined as they are. -/
theorem clauses_collapsed {effects : List Effect}
    (speak : ∀ effect ∈ effects, (effectText effect).value ≠ "") :
    collapse (clauses (effects.map fun effect => (effectText effect).value)) =
      clauses (effects.map fun effect => (effectText effect).value) := by
  by_cases none : effects = []
  · rw [none]
    rfl
  · apply Tidy.collapse_eq
    apply tidy_clauses (by simpa using none)
    intro text listed
    obtain ⟨effect, member, rfl⟩ := List.mem_map.1 listed
    exact tidy_collapse (speak effect member)

/-! ## Assembly -/

theorem intercalate_eq_empty_iff {parts : List String} (nonempty : ∀ part ∈ parts, part ≠ "") :
    " ".intercalate parts = "" ↔ parts = [] := by
  constructor
  · intro empty
    by_contra some
    obtain ⟨part, rest, rfl⟩ := List.exists_cons_of_ne_nil some
    have first := nonempty part List.mem_cons_self
    by_cases none : rest = []
    · simp [none, first] at empty
    · simp [String.intercalate_cons_of_ne_nil none] at empty
  · rintro rfl
    rfl

/-- A sentence has the words of its parts. -/
theorem value_spoken_canonical (ability : Ability) :
    (spoken .canonical ability).value = sentence ability.parts := by
  have mentioned : Config.canonical.usageLimits = true := rfl
  have caps : wordsOf (capFragments ability) =
      wordsOf [ability.perTurn.elim "" fun uses => "(" ++ numeral uses ++ "x per turn)",
        ability.perGame.elim "" fun _ => "(once per game)"] := by
    unfold capFragments
    cases ability.perTurn <;> cases ability.perGame <;> simp
  rw [value_spoken, mentioned, if_pos rfl, sentence_eq_iff, wordsOf_append, caps]
  simp only [Ability.parts, wordsOf_cons, wordsOf_nil, words_collapse, List.append_assoc]
  rfl

/-- The text of an ability whose effects all have something to say is made of its parts: those that
are not empty, with one space between them, or the name if there are none. The list of clauses is
one of the parts, and stays as it is. -/
theorem describe_assembled (ability : Ability)
    (speak : ∀ effect ∈ ability.effects, (effectText effect).value ≠ "") :
    let joined := clauses (ability.effects.map fun effect => (effectText effect).value)
    let said := ability.parts.filter (· ≠ "")
    collapse joined = joined ∧
      (describe .canonical ability).value =
        if said = [] then ability.name else " ".intercalate said := by
  intro joined said
  have settled : collapse joined = joined := clauses_collapsed speak
  have collapsed : ability.parts.map collapse = ability.parts := by
    simp only [Ability.parts, List.map_cons, List.map_nil, triggerPhrase_collapsed,
      collapse_collapse, settled, perTurn_collapsed, perGame_collapsed, joined]
  have assembled : (spoken .canonical ability).value = " ".intercalate said := by
    rw [value_spoken_canonical, sentence_eq, collapsed]
  have spoken : " ".intercalate said = "" ↔ said = [] :=
    intercalate_eq_empty_iff fun part kept => by simpa using (List.mem_filter.1 kept).2
  refine ⟨settled, ?_⟩
  rw [value_describe, assembled]
  simp only [spoken]
  rfl

/-- A counter with blanks of its own, three clauses with raw tags, and both caps. -/
theorem bramble_assembled :
    let bramble : Ability :=
      { name := "Bramble"
        trigger := some (.known .onAttack)
        cost := some { payment := .removeCounter (.unknown " dry  thorn ") }
        effects := [Effect.draw 1, Effect.destroy (.unknown "\tfront\u3000row "),
          Effect.attackModification (.unknown "") (.unknown "ricochets")]
        perTurn := some 2
        perGame := some 3 }
    (∀ effect ∈ bramble.effects, (effectText effect).value ≠ "") ∧
      (describe .canonical bramble).value = "When attacking, Remove 1 dry thorn counter: " ++
        "draw 1 card, destroy front row, and ricochets (2x per turn) (once per game)" := by
  intro bramble
  have speak : ∀ effect ∈ bramble.effects, (effectText effect).value ≠ "" := by decide +kernel
  refine ⟨speak, ?_⟩
  rw [(describe_assembled bramble speak).2]
  decide +kernel

end Describe

end RulesText
