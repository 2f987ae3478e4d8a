import RulesText.Describe.Sentence
import RulesText.Proofs.Words

/-!
# What a configuration leaves of an ability, and when nothing is left to say

Leaving a part of an ability out of its text is the same as describing the ability without that
part. An ability of which nothing is left is silent and is called by its name; every other one has a
tidy text that its name has no part in.
-/

namespace RulesText
open Format Text Describe

/-! ## Leaving parts out -/

/-- The effect without its condition. -/
def Effect.ungated (effect : Effect) : Effect := { effect with condition := none }

namespace Ability

/-- The ability without the conditions and the caps that a configuration does not mention. -/
def reduced (config : Config) (ability : Ability) : Ability :=
  { ability with
    effects := if config.conditions then ability.effects else ability.effects.map Effect.ungated
    perTurn := if config.usageLimits then ability.perTurn else none
    perGame := if config.usageLimits then ability.perGame else none }

variable (config : Config) (ability : Ability)

@[simp] theorem name_reduced : (ability.reduced config).name = ability.name := rfl

@[simp] theorem trigger_reduced : (ability.reduced config).trigger = ability.trigger := rfl

@[simp] theorem cost_reduced : (ability.reduced config).cost = ability.cost := rfl

end Ability

namespace Describe

theorem clause_ungated (effect : Effect) : clause true effect.ungated = clause false effect := rfl

theorem clauses_reduced (config : Config) (ability : Ability) :
    (ability.reduced config).effects.mapM (clause true) =
      ability.effects.mapM (clause config.conditions) := by
  cases mentioned : config.conditions with
  | true => simp [Ability.reduced, mentioned]
  | false =>
    have ungated : clause true ∘ Effect.ungated = clause false := funext clause_ungated
    simp only [Ability.reduced, mentioned, Bool.false_eq_true, if_false, List.mapM_map, ungated]

theorem caps_reduced (config : Config) (ability : Ability) :
    capFragments (ability.reduced config) =
      if config.usageLimits then capFragments ability else [] := by
  cases mentioned : config.usageLimits <;> simp [capFragments, Ability.reduced, mentioned]

/-- The sentence that a configuration makes of an ability is the whole sentence about what it leaves
of the ability, with the same notes. -/
theorem spoken_reduced (config : Config) (ability : Ability) :
    spoken .canonical (ability.reduced config) = spoken config ability := by
  have conditions : Config.canonical.conditions = true := rfl
  have limits : Config.canonical.usageLimits = true := rfl
  simp only [spoken, conditions, limits, clauses_reduced, caps_reduced, Ability.trigger_reduced,
    Ability.cost_reduced, if_true]

theorem value_describe (config : Config) (ability : Ability) :
    (describe config ability).value =
      if (spoken config ability).value = "" then ability.name
      else if config.capitalize then capitalize (spoken config ability).value
      else (spoken config ability).value := by
  simp only [describe, Logged.value_bind, Logged.value_pure]

theorem notes_describe (config : Config) (ability : Ability) :
    (describe config ability).notes = (spoken config ability).notes ++
      [.described ability.name (describe config ability).value] := by
  simp only [describe, Logged.notes_bind, Logged.value_bind, Logged.notes_pure, Logged.value_pure,
    Logged.notes_note, List.append_nil]

/-! ## Capitals -/

/-- Only the first character of a text makes way for its uppercase. -/
theorem toList_capitalize {text : String} (nonempty : text ≠ "") :
    ∃ c rest, text.toList = c :: rest ∧ (capitalize text).toList = uppercase c ++ rest := by
  cases split : text.toList with
  | nil => exact absurd (String.toList_eq_nil_iff.1 split) nonempty
  | cons c rest => exact ⟨c, rest, rfl, by simp [capitalize, split]⟩

/-- A configuration describes an ability as the canonical wording describes what it leaves of the
ability. Without a capital the two are the same, with all notes. With one, the first character of
the text makes way for its uppercase, unless there is nothing to say and the name stands in. The
notes differ at most in the text that the last of them quotes. -/
theorem describe_reduced (config : Config) (ability : Ability) :
    let sentence := spoken .canonical (ability.reduced config)
    let plain := describe .canonical (ability.reduced config)
    (config.capitalize = false → describe config ability = plain) ∧
      (config.capitalize = true → sentence.value = "" →
        describe config ability = plain ∧ plain.value = ability.name) ∧
      (config.capitalize = true → sentence.value ≠ "" → ∃ c rest,
        plain.value.toList = c :: rest ∧
          (describe config ability).value.toList = uppercase c ++ rest) ∧
      plain.notes = sentence.notes ++ [.described ability.name plain.value] ∧
      (describe config ability).notes =
        sentence.notes ++ [.described ability.name (describe config ability).value] := by
  intro sentence plain
  have text := value_describe config ability
  have plainText := value_describe .canonical (ability.reduced config)
  have records := notes_describe config ability
  have plainRecords := notes_describe .canonical (ability.reduced config)
  rw [← spoken_reduced] at text records
  have same (agrees : (describe config ability).value = plain.value) :
      describe config ability = plain := by
    refine Logged.ext agrees ?_
    rw [records, plainRecords, agrees]
    rfl
  refine ⟨fun small => same ?_, fun large silent => ?_, fun large speaks => ?_, plainRecords,
    records⟩
  · rw [text, plainText, small]
    rfl
  · have name : plain.value = ability.name := by rw [plainText, if_pos silent]; rfl
    refine ⟨same ?_, name⟩
    rw [text, if_pos silent, name]
  · have spoke : plain.value = sentence.value := by rw [plainText, if_neg speaks]; rfl
    rw [text, if_neg speaks, if_pos large, spoke]
    exact toList_capitalize speaks

/-- A condition and a cap are left out, and the text begins with a capital of two letters. -/
theorem ember_reduced :
    let config : Config := { usageLimits := false, conditions := false, capitalize := true }
    let ember : Ability :=
      { name := "Ember"
        effects := [(Effect.modifyStats (.unknown "ßeta") .attack 2).gatedBy .damaged]
        perTurn := some 1 }
    config.capitalize = true ∧ (spoken .canonical (ember.reduced config)).value ≠ "" ∧
      (describe .canonical (ember.reduced config)).value = "ßeta get +2 ATK" ∧
      (describe config ember).value = "SSeta get +2 ATK" := by
  intro config ember
  have speaks : (spoken .canonical (ember.reduced config)).value ≠ "" := by decide +kernel
  have plain : (describe .canonical (ember.reduced config)).value = "ßeta get +2 ATK" := by
    decide +kernel
  obtain ⟨c, rest, split, capital⟩ := (describe_reduced config ember).2.2.1 rfl speaks
  rw [plain] at split
  obtain ⟨rfl, rfl⟩ := List.cons.inj split
  refine ⟨rfl, speaks, plain, String.toList_inj.1 ?_⟩
  rw [capital]
  decide +kernel

end Describe

/-! ## Silent abilities -/

/-- Whether a configuration leaves nothing to say about an ability: its trigger goes without saying
or has no phrase, it costs nothing, it has no effect or a single one with an empty clause, and no
cap is mentioned. -/
structure Ability.Silent (config : Config) (ability : Ability) : Prop where
  trigger : ability.trigger = none ∨ ability.trigger = some (.known .passive) ∨
    ability.trigger = some (.known .activated) ∨ ∃ tag, ability.trigger = some (.unknown tag)
  cost : ability.cost = none
  effects : ability.effects = [] ∨
    ∃ effect, ability.effects = [effect] ∧ (clause config.conditions effect).value = ""
  caps : config.usageLimits = false ∨ ability.perTurn = none ∧ ability.perGame = none

namespace Describe

/-! ## Silent parts -/

theorem eventPhrase_silent_iff (event : Event) :
    words (eventPhrase event).toList = [] ↔ event = .passive ∨ event = .activated := by
  cases event <;> decide

theorem triggerPhrase_silent_iff (trigger : Option Trigger) :
    words (triggerPhrase trigger).value.toList = [] ↔
      trigger = none ∨ trigger = some (.known .passive) ∨ trigger = some (.known .activated) ∨
        ∃ tag, trigger = some (.unknown tag) := by
  match trigger with
  | none => simp [triggerPhrase]
  | some (.known event) => simpa [triggerPhrase] using eventPhrase_silent_iff event
  | some (.unknown tag) => simp [triggerPhrase]

/-- Whatever a cost is, it is mentioned. -/
theorem costPhrase_silent_iff (cost : Option Cost) :
    words (costPhrase cost).toList = [] ↔ cost = none := by
  cases cost with
  | none => simp [costPhrase]
  | some cost =>
    have mentioned : ∃ c ∈ (costPhrase (some cost)).toList, isBlank c = false := by
      obtain ⟨payment, value⟩ := cost
      cases payment with
      | nectar => exact ⟨'P', by simp [costPhrase], by decide⟩
      | discard => exact ⟨'D', by simp [costPhrase], by decide⟩
      | sacrifice =>
        refine ⟨'S', ?_, by decide⟩
        simp only [costPhrase]
        split <;> simp
      | removeCounter counter => exact ⟨'R', by simp [costPhrase], by decide⟩
    obtain ⟨c, inside, visible⟩ := mentioned
    simp [words_ne_nil inside visible]

/-- Two clauses or more have a conjunction or a comma between them, even if they are empty. -/
theorem clauses_silent_iff (texts : List String) :
    words (clauses texts).toList = [] ↔
      texts = [] ∨ ∃ text, texts = [text] ∧ words text.toList = [] := by
  match texts with
  | [] => simp [clauses, series]
  | [text] => simp [clauses, series]
  | [first, second] =>
    have joined : 'a' ∈ (clauses [first, second]).toList := by simp [clauses]
    simp [words_ne_nil joined (by decide)]
  | first :: second :: third :: rest =>
    have joined : ',' ∈ (clauses (first :: second :: third :: rest)).toList := by
      simp [clauses, series]
    simp [words_ne_nil joined (by decide)]

theorem capFragments_visible (ability : Ability) :
    ∀ cap ∈ capFragments ability, words cap.toList ≠ [] := by
  intro cap listed
  have bracket : '(' ∈ cap.toList := by
    rcases List.mem_append.1 listed with turn | game
    · obtain ⟨uses, rfl⟩ : ∃ uses, "(" ++ numeral uses ++ "x per turn)" = cap := by
        obtain ⟨uses, _, same⟩ := Option.map_eq_some_iff.1 (Option.mem_toList.1 turn)
        exact ⟨uses, same⟩
      simp
    · obtain ⟨_, _, rfl⟩ := Option.map_eq_some_iff.1 (Option.mem_toList.1 game)
      simp
  exact words_ne_nil bracket (by decide)

/-- Every cap that there is is mentioned. -/
theorem capFragments_silent_iff (ability : Ability) :
    (∀ cap ∈ capFragments ability, words cap.toList = []) ↔
      ability.perTurn = none ∧ ability.perGame = none := by
  constructor
  · intro silent
    have none : capFragments ability = [] :=
      List.eq_nil_iff_forall_not_mem.2 fun cap listed =>
        capFragments_visible ability cap listed (silent cap listed)
    simpa [capFragments] using none
  · rintro ⟨turn, game⟩ cap listed
    simp [capFragments, turn, game] at listed

theorem clause_collapsed (withCondition : Bool) (effect : Effect) :
    collapse (clause withCondition effect).value = (clause withCondition effect).value :=
  collapse_sentence _

/-- There is nothing to say about an ability exactly if it is silent. -/
theorem spoken_eq_empty_iff (config : Config) (ability : Ability) :
    (spoken config ability).value = "" ↔ ability.Silent config := by
  have parts : (spoken config ability).value = sentence
      ([(triggerPhrase ability.trigger).value, costPhrase ability.cost,
        clauses (ability.effects.map fun effect => (clause config.conditions effect).value)] ++
        if config.usageLimits then capFragments ability else []) := by
    simp only [spoken, Logged.value_bind, Logged.value_pure, Logged.value_mapM]
  have effects : words (clauses (ability.effects.map fun effect =>
      (clause config.conditions effect).value)).toList = [] ↔ ability.effects = [] ∨
        ∃ effect, ability.effects = [effect] ∧ (clause config.conditions effect).value = "" := by
    rw [clauses_silent_iff, List.map_eq_nil_iff]
    refine or_congr_right ⟨?_, ?_⟩
    · rintro ⟨text, single, silent⟩
      obtain ⟨effect, only, rfl⟩ := List.map_eq_singleton_iff.1 single
      exact ⟨effect, only,
        (words_eq_nil_iff_of_collapsed (clause_collapsed config.conditions effect)).1 silent⟩
    · rintro ⟨effect, only, silent⟩
      exact ⟨"", by simp [only, silent], words_nil⟩
  have caps : (∀ cap ∈ (if config.usageLimits then capFragments ability else []),
      words cap.toList = []) ↔
        config.usageLimits = false ∨ ability.perTurn = none ∧ ability.perGame = none := by
    cases mentioned : config.usageLimits with
    | true => simpa using capFragments_silent_iff ability
    | false => simp
  rw [parts, sentence_eq_empty_iff]
  simp only [List.cons_append, List.nil_append, List.forall_mem_cons, triggerPhrase_silent_iff,
    costPhrase_silent_iff, effects, caps]
  exact ⟨fun ⟨t, c, e, m⟩ => ⟨t, c, e, m⟩, fun ⟨t, c, e, m⟩ => ⟨t, c, e, m⟩⟩

theorem spoken_tidy {config : Config} {ability : Ability}
    (speaks : (spoken config ability).value ≠ "") : Tidy (spoken config ability).value.toList :=
  tidy_collapse speaks

/-- A silent ability is called by its name, as it is. Every other one has a tidy text, and the text
stays the same under every other name. -/
theorem describe_silent (config : Config) (ability : Ability) :
    (ability.Silent config → (describe config ability).value = ability.name) ∧
      (¬ ability.Silent config → Tidy (describe config ability).value.toList ∧
        ∀ name, (describe config { ability with name }).value =
          (describe config ability).value) := by
  constructor
  · intro silent
    rw [value_describe, if_pos ((spoken_eq_empty_iff config ability).2 silent)]
  · intro loud
    have speaks := mt (spoken_eq_empty_iff config ability).1 loud
    have tidy := spoken_tidy speaks
    have text (name : String) : (describe config { ability with name }).value =
        if config.capitalize then capitalize (spoken config ability).value
        else (spoken config ability).value := by
      rw [value_describe]
      exact if_neg speaks
    refine ⟨?_, fun name => (text name).trans (text ability.name).symm⟩
    rw [show (describe config ability).value = _ from text ability.name]
    split
    · exact tidy.capitalize
    · exact tidy

/-- Blank raw tags and an unknown trigger leave nothing to say; a cost does not. -/
theorem husk_silent :
    let config : Config := { capitalize := true }
    let husk : Ability :=
      { name := " husk "
        trigger := some (.unknown "OnEclipse")
        effects := [Effect.attackModification (.unknown "\u3000") (.unknown "")] }
    let shell := { husk with cost := some { payment := .removeCounter (.unknown "\u3000rust\t") } }
    husk.Silent config ∧ (describe config husk).value = " husk " ∧
      ¬ shell.Silent config ∧ Tidy (describe config shell).value.toList := by
  intro config husk shell
  have clauseEmpty : (clause config.conditions
      (Effect.attackModification (.unknown "\u3000") (.unknown ""))).value = "" := by decide +kernel
  have silent : husk.Silent config :=
    ⟨.inr (.inr (.inr ⟨_, rfl⟩)), rfl, .inr ⟨_, rfl, clauseEmpty⟩, .inr ⟨rfl, rfl⟩⟩
  have loud : ¬ shell.Silent config := fun silent => by cases silent.cost
  exact ⟨silent, (describe_silent config husk).1 silent, loud,
    ((describe_silent config shell).2 loud).1⟩

end Describe

end RulesText
