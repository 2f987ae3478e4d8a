import Mathlib.Algebra.GroupWithZero.Nat
import RulesText.Proofs.Sentence

/-!
# Effects with nothing to say

An effect whose raw tags are blank has an empty clause. Empty parts of a sentence leave no trace,
but the clauses are joined by commas and `and` before they become a part of the sentence, and an
empty clause is joined like any other. So deleting the effects that have nothing to say keeps the
text if there are none, or if there is no other effect; in every other case separators are left
over, and the text counts them.
-/

namespace RulesText.Text

/-! ## Visible characters -/

/-- How many characters of a text are not blank. -/
def visible (text : List Char) : Nat := text.countP (!isBlank ·)

@[simp] theorem visible_nil : visible [] = 0 := rfl

@[simp] theorem visible_append (front back : List Char) :
    visible (front ++ back) = visible front + visible back :=
  List.countP_append

/-- The visible characters of a text are those of its words. -/
theorem length_flatten_words (text : List Char) : (words text).flatten.length = visible text := by
  rw [flatten_words, visible, List.countP_eq_length_filter]

/-- A sentence shows what its fragments show. -/
theorem visible_sentence (fragments : List String) :
    visible (sentence fragments).toList =
      (fragments.map fun fragment => visible fragment.toList).sum := by
  rw [← length_flatten_words, words_sentence]
  induction fragments with
  | nil => rfl
  | cons fragment fragments ih =>
    rw [List.flatMap_cons, List.flatten_append, List.length_append, ih, length_flatten_words,
      List.map_cons, List.sum_cons]

/-! ## Separators -/

/-- How many visible characters join so many clauses: `and` for two, and from three on a comma
behind each clause but the last, and `and`. -/
def joints (count : Nat) : Nat :=
  if count ≤ 1 then 0 else if count = 2 then 3 else count + 2

theorem visible_series (items : List String) :
    visible (series ", and " items).toList = (items.map fun item => visible item.toList).sum +
      (if items.length ≤ 1 then 0 else items.length + 2) := by
  match items with
  | [] => rfl
  | [item] => simp [series]
  | [item, final] =>
    have joined : visible ", and ".toList = 4 := by decide
    simp only [series, String.toList_append, visible_append, joined]
    simp
    omega
  | item :: second :: third :: rest =>
    have comma : visible ", ".toList = 1 := by decide
    have later := visible_series (second :: third :: rest)
    simp only [series, String.toList_append, visible_append, comma]
    simp only [List.map_cons, List.sum_cons, List.length_cons] at later ⊢
    rw [if_neg (by omega)] at later ⊢
    omega

/-- Joined clauses show what each of them shows, and the separators. -/
theorem visible_clauses (texts : List String) :
    visible (clauses texts).toList =
      (texts.map fun text => visible text.toList).sum + joints texts.length := by
  match texts with
  | [] => rfl
  | [text] => simp [clauses, series, joints]
  | [first, second] =>
    have joined : visible " and ".toList = 3 := by decide
    simp only [clauses, String.toList_append, visible_append, joined]
    simp [joints]
    omega
  | first :: second :: third :: rest =>
    have counted := visible_series (first :: second :: third :: rest)
    simpa [clauses, joints] using counted

/-- Separators become more with every clause, from the second on. -/
theorem joints_lt {fewer more : Nat} (less : fewer < more) (several : 2 ≤ more) :
    joints fewer < joints more := by
  unfold joints
  grind

end RulesText.Text

namespace RulesText
open Describe Text

/-! ## Deleting what has nothing to say -/

/-- Whether an effect has something to say under a configuration. -/
def Effect.Speaks (config : Config) (effect : Effect) : Prop :=
  (clause config.conditions effect).value ≠ ""

instance (config : Config) : DecidablePred (Effect.Speaks config) :=
  fun effect => inferInstanceAs (Decidable ((clause config.conditions effect).value ≠ ""))

/-- The ability without the effects that have nothing to say. -/
def Ability.voiced (config : Config) (ability : Ability) : Ability :=
  { ability with effects := ability.effects.filter fun effect => effect.Speaks config }

/-- Whether no effect has nothing to say, or no other effect is there. -/
def Ability.Unjoined (config : Config) (ability : Ability) : Prop :=
  (∀ effect ∈ ability.effects, effect.Speaks config) ∨ ability.effects.length ≤ 1

namespace Describe

variable (config : Config) (ability : Ability)

/-- The texts of the clauses, in order. -/
def clauseTexts : List String :=
  ability.effects.map fun effect => (clause config.conditions effect).value

theorem value_spoken : (spoken config ability).value = sentence
    ([(triggerPhrase ability.trigger).value, costPhrase ability.cost,
      clauses (clauseTexts config ability)] ++
        if config.usageLimits then capFragments ability else []) := by
  simp only [spoken, clauseTexts, Logged.value_bind, Logged.value_pure, Logged.value_mapM]

theorem clauseTexts_voiced :
    clauseTexts config (ability.voiced config) = (clauseTexts config ability).filter (· ≠ "") := by
  rw [clauseTexts, clauseTexts, List.filter_map, Ability.voiced]
  refine congrArg _ (List.filter_congr fun effect _ => ?_)
  by_cases empty : (clause config.conditions effect).value = "" <;>
    simp [Effect.Speaks, empty]

/-- A sentence is told by its clauses: with others in their place, the same else. -/
theorem value_spoken_voiced
    (same : clauses (clauseTexts config (ability.voiced config)) =
      clauses (clauseTexts config ability)) :
    (spoken config (ability.voiced config)).value = (spoken config ability).value := by
  rw [value_spoken, value_spoken, same]
  rfl

/-- What a sentence shows without the effects that have nothing to say, and with the separators of
all effects, is what it shows with all effects and with the separators of those that speak. -/
theorem visible_spoken_voiced :
    visible (spoken config (ability.voiced config)).value.toList + joints ability.effects.length =
      visible (spoken config ability).value.toList +
        joints (ability.voiced config).effects.length := by
  have silent (texts : List String) :
      ((texts.filter (· ≠ "")).map fun text => visible text.toList).sum =
        (texts.map fun text => visible text.toList).sum := by
    induction texts with
    | nil => rfl
    | cons text texts ih =>
      by_cases empty : text = ""
      · rw [List.filter_cons_of_neg (by simpa using empty), ih, List.map_cons, List.sum_cons, empty]
        exact (Nat.zero_add _).symm
      · rw [List.filter_cons_of_pos (by simpa using empty), List.map_cons, List.sum_cons, ih,
          List.map_cons, List.sum_cons]
  have lengths (ability : Ability) :
      (clauseTexts config ability).length = ability.effects.length := List.length_map _
  have caps : capFragments (ability.voiced config) = capFragments ability := rfl
  simp only [value_spoken, visible_sentence, List.map_append, List.sum_append, List.map_cons,
    List.sum_cons, visible_clauses, lengths, caps]
  rw [clauseTexts_voiced, silent]
  simp only [Ability.voiced]
  omega

theorem voiced_of_speaks (speak : ∀ effect ∈ ability.effects, effect.Speaks config) :
    ability.voiced config = ability := by
  have all : ability.effects.filter (fun effect => effect.Speaks config) = ability.effects :=
    List.filter_eq_self.2 fun effect listed => by simpa using speak effect listed
  rw [Ability.voiced, all]

theorem clauses_voiced_of_unjoined (unjoined : ability.Unjoined config) :
    clauses (clauseTexts config (ability.voiced config)) =
      clauses (clauseTexts config ability) := by
  rcases unjoined with speak | single
  · rw [voiced_of_speaks config ability speak]
  · rw [clauseTexts_voiced]
    have few : (clauseTexts config ability).length ≤ 1 := by
      rw [clauseTexts, List.length_map]
      exact single
    match clauseTexts config ability, few with
    | [], _ => rfl
    | [text], _ =>
      by_cases empty : text = ""
      · rw [empty]
        rfl
      · rw [List.filter_cons_of_pos (by simpa using empty)]
        rfl

/-- The sentence stays the same without the effects that have nothing to say exactly if there is no
such effect or no other one. -/
theorem spoken_voiced_iff :
    (spoken config (ability.voiced config)).value = (spoken config ability).value ↔
      ability.Unjoined config := by
  constructor
  · intro same
    have counted := visible_spoken_voiced config ability
    rw [same, Nat.add_left_cancel_iff] at counted
    by_cases several : 2 ≤ ability.effects.length
    · left
      have fewer : (ability.voiced config).effects.length ≤ ability.effects.length :=
        List.length_filter_le _ _
      have whole : (ability.voiced config).effects.length = ability.effects.length := by
        rcases Nat.lt_or_eq_of_le fewer with less | whole
        · have apart := joints_lt less several
          omega
        · exact whole
      intro effect listed
      simpa using List.length_filter_eq_length_iff.1 whole effect listed
    · right
      omega
  · intro unjoined
    exact value_spoken_voiced config ability (clauses_voiced_of_unjoined config ability unjoined)

/-- Deleting the effects that have nothing to say keeps the text of an ability if there is no such
effect or no other one. In every other case the sentence about the ability is another one, and so
is the text, unless something else makes up for the separators: a capital, or the name that stands
in for a sentence without words. -/
theorem describe_voiced :
    (ability.Unjoined config → (describe config (ability.voiced config)).value =
      (describe config ability).value) ∧
    ((spoken config (ability.voiced config)).value = (spoken config ability).value ↔
      ability.Unjoined config) ∧
    (config.capitalize = false → ¬ (ability.voiced config).Silent config →
      ((describe config (ability.voiced config)).value = (describe config ability).value ↔
        ability.Unjoined config)) := by
  have same (unjoined : ability.Unjoined config) :
      (describe config (ability.voiced config)).value = (describe config ability).value := by
    rw [value_describe, value_describe, (spoken_voiced_iff config ability).2 unjoined]
    rfl
  refine ⟨same, spoken_voiced_iff config ability, fun small loud => ⟨fun agrees => ?_, same⟩⟩
  have speaks : (spoken config (ability.voiced config)).value ≠ "" :=
    mt (spoken_eq_empty_iff config _).1 loud
  have speaks' : (spoken config ability).value ≠ "" := by
    intro empty
    have few : ability.effects.length ≤ 1 := by
      rcases ((spoken_eq_empty_iff config ability).1 empty).effects with none | ⟨effect, only, _⟩
      · simp [none]
      · simp [only]
    exact speaks (((spoken_voiced_iff config ability).2 (.inr few)).trans empty)
  rw [value_describe, value_describe, if_neg speaks, if_neg speaks', small] at agrees
  exact (spoken_voiced_iff config ability).1 agrees

/-- A target and a modifier of blanks leave `and` in front of the only clause that has words; the
effect alone leaves nothing. -/
theorem rustle_voiced :
    let rustle := Effect.attackModification (.unknown "") (.unknown " ")
    let draw := Effect.draw 1
    let both : Ability := { name := "rustle", effects := [rustle, draw] }
    let alone : Ability := { name := "rustle", effects := [rustle] }
    (¬ (both.voiced .canonical).Silent .canonical ∧ ¬ both.Unjoined .canonical ∧
      (describe .canonical (both.voiced .canonical)).value ≠ (describe .canonical both).value) ∧
    alone.Unjoined .canonical ∧
      (describe .canonical (alone.voiced .canonical)).value =
        (describe .canonical alone).value := by
  intro rustle draw both alone
  have loud : ¬ (both.voiced .canonical).Silent .canonical := by
    rw [← spoken_eq_empty_iff]
    decide +kernel
  have joined : ¬ both.Unjoined .canonical := by
    unfold Ability.Unjoined
    decide +kernel
  have unjoined : alone.Unjoined .canonical := .inr (Nat.le_refl 1)
  refine ⟨⟨loud, joined, fun same => joined ?_⟩, unjoined, ?_⟩
  · exact ((describe_voiced .canonical both).2.2 rfl loud).1 same
  · exact (describe_voiced .canonical alone).1 unjoined

/-- An effect without words is heard in the text: the text begins with a separator, and without the
effect it does not. -/
theorem rustle_heard :
    let rustle := Effect.attackModification (.unknown "") (.unknown " ")
    let draw := Effect.draw 1
    let ability : Ability := { name := "rustle", effects := [rustle, draw] }
    (clause true rustle).value = "" ∧ (describe .canonical ability).value = "and draw 1 card" ∧
      (describe .canonical { ability with effects := [draw] }).value = "draw 1 card" := by
  decide +kernel

end Describe

end RulesText
