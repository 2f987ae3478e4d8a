import RulesText.Proofs.Clauses
import RulesText.Proofs.Lists
import RulesText.Proofs.Numerals
import RulesText.Proofs.Tidy

/-!
# Lists of sources are told apart

The clause of an immunity tells what it is an immunity to, and the clause of a Beast that can't be
targeted tells by what, and from which cost on. A list of sources is tidy, so its words are its
text, and its text can be read back; what follows it is a threshold or nothing, and a threshold
begins with a word that is in no list.
-/

namespace RulesText
open Describe Text

/-! ## Lists that are read back -/

namespace Text

/-- Phrases that can be listed with a word before the last of them: each is tidy, plain beside that
word, and unlike all others. -/
structure Listable {α : Type} (word : String) (phrase : α → String) : Prop where
  solid : Solid word.toList
  comma : ',' ∉ word.toList
  collapsed : ∀ source, collapse (phrase source) = phrase source
  plain : ∀ source, Plain word (phrase source)
  injective : Function.Injective phrase

namespace Listable

variable {α : Type} {word : String} {phrase : α → String}

theorem tidy (listable : Listable word phrase) (source : α) : Tidy (phrase source).toList :=
  tidy_of_collapsed (listable.collapsed source) (listable.plain source).nonempty

theorem collapse_series (listable : Listable word phrase) (sources : List α) :
    collapse (series (" " ++ word ++ " ") (sources.map phrase)) =
      series (" " ++ word ++ " ") (sources.map phrase) := by
  by_cases none : sources = []
  · rw [none]
    rfl
  · apply Tidy.collapse_eq
    apply tidy_series (by simpa using none)
    · intro item listed
      obtain ⟨source, _, rfl⟩ := List.mem_map.1 listed
      exact listable.tidy source
    · intro front back before behind
      have joined := before.append_word listable.solid behind
      simpa using joined

/-- A list is told by its words. -/
theorem series_words_injective (listable : Listable word phrase) {sources others : List α}
    (same : words (series (" " ++ word ++ " ") (sources.map phrase)).toList =
      words (series (" " ++ word ++ " ") (others.map phrase)).toList) : sources = others := by
  rw [← collapse_eq_iff, listable.collapse_series, listable.collapse_series] at same
  have plain (list : List α) : ∀ item ∈ list.map phrase, Plain word item := by
    intro item listed
    obtain ⟨source, _, rfl⟩ := List.mem_map.1 listed
    exact listable.plain source
  have texts := series_injective listable.solid listable.comma (plain sources) (plain others) same
  exact listable.injective.list_map texts

end Listable

end Text

namespace Describe

/-- The words of a list behind its preposition, which an empty list goes without. -/
theorem listed_told_apart {α : Type} {word preposition : String} {phrase : α → String}
    (listable : Listable word phrase) (solid : Solid preposition.toList) {sources others : List α}
    (same : wordsOf (if sources.isEmpty then [] else
        [preposition, series (" " ++ word ++ " ") (sources.map phrase)]) =
      wordsOf (if others.isEmpty then [] else
        [preposition, series (" " ++ word ++ " ") (others.map phrase)])) : sources = others := by
  have begun := words_of_solid solid
  cases sources with
  | nil =>
    cases others with
    | nil => rfl
    | cons other others => simp [begun] at same
  | cons source sources =>
    cases others with
    | nil => simp [begun] at same
    | cons other others =>
      simp only [List.isEmpty_cons, Bool.false_eq_true, if_false, wordsOf_cons, wordsOf_nil,
        List.append_nil, List.append_cancel_left_eq] at same
      exact listable.series_words_injective same

/-! ## Immunity -/

theorem immunity_listable : Listable "and" ImmunitySource.phrase where
  solid := by decide
  comma := by decide
  collapsed source := by cases source <;> decide
  plain source := by cases source <;> exact ⟨by decide, by decide, by decide +kernel⟩
  injective source other same := by
    cases source <;> cases other <;> first | rfl | exact absurd same (by decide)

theorem immunity_told_apart {target : Target} {sources others : List ImmunitySource}
    (same : wordsOf (standingFragments target (.immunity sources)).value =
      wordsOf (standingFragments target (.immunity others)).value) : sources = others := by
  simp only [standingFragments, Logged.value_bind, Logged.value_pure, wordsOf_append,
    List.append_cancel_left_eq] at same
  exact listed_told_apart immunity_listable (by decide) same

/-! ## Protection from being targeted -/

theorem targeting_listable : Listable "or" TargetingSource.phrase where
  solid := by decide
  comma := by decide
  collapsed source := by cases source <;> decide
  plain source := by cases source <;> exact ⟨by decide, by decide, by decide +kernel⟩
  injective source other same := by
    cases source <;> cases other <;> first | rfl | exact absurd same (by decide)

/-- The sources that may not target, behind their preposition. -/
def barred (sources : List TargetingSource) : List String :=
  if sources.isEmpty then [] else ["by", disjunction (sources.map TargetingSource.phrase)]

/-- The least cost of a source that may not target. -/
def costly (threshold : Option UInt32) : List String :=
  match threshold with
  | some cost => ["with Cost", numeral cost, "or higher"]
  | none => []

theorem wordsOf_cannotBeTargeted (target : Target) (sources : List TargetingSource)
    (threshold : Option UInt32) :
    wordsOf (actFragments target (.cannotBeTargeted sources threshold)).value =
      wordsOf [(targetPhrase target).value, "can't be targeted"] ++
        (wordsOf (barred sources) ++ wordsOf (costly threshold)) := by
  have split : (actFragments target (.cannotBeTargeted sources threshold)).value =
      [(targetPhrase target).value, "can't be targeted"] ++ barred sources ++ costly threshold := rfl
  rw [split, wordsOf_append, wordsOf_append, List.append_assoc]

/-- No list of sources has the word that a threshold begins with. -/
theorem with_notMem_barred (sources : List TargetingSource) :
    "with".toList ∉ wordsOf (barred sources) := by
  intro member
  obtain ⟨fragment, listed, word⟩ := List.mem_flatMap.1 member
  have letter : 'w' ∈ fragment.toList := mem_of_mem_words word (by decide)
  unfold barred at listed
  split at listed
  · cases listed
  · rcases List.mem_pair.1 listed with rfl | rfl
    · revert letter
      decide
    · rcases mem_series letter with comma | last | ⟨item, named, own⟩
      · revert comma
        decide
      · revert last
        decide
      · obtain ⟨source, _, rfl⟩ := List.mem_map.1 named
        cases source <;> exact absurd own (by decide)

theorem wordsOf_costly (cost : UInt32) : wordsOf (costly (some cost)) =
    ["with".toList, "Cost".toList, (numeral cost).toList, "or".toList, "higher".toList] := by
  have front : words "with Cost".toList = ["with".toList, "Cost".toList] := by decide
  have back : words "or higher".toList = ["or".toList, "higher".toList] := by decide
  simp only [costly, wordsOf_cons, wordsOf_nil, front, back, words_numeral, List.cons_append,
    List.nil_append]

theorem protection_told_apart {target : Target} {sources others : List TargetingSource}
    {threshold threshold' : Option UInt32}
    (same : wordsOf (actFragments target (.cannotBeTargeted sources threshold)).value =
      wordsOf (actFragments target (.cannotBeTargeted others threshold')).value) :
    sources = others ∧ threshold = threshold' := by
  rw [wordsOf_cannotBeTargeted, wordsOf_cannotBeTargeted, List.append_cancel_left_eq] at same
  have lists (alike : wordsOf (barred sources) = wordsOf (barred others)) : sources = others :=
    listed_told_apart targeting_listable (by decide) alike
  cases threshold with
  | none =>
    cases threshold' with
    | none => exact ⟨lists (by simpa [costly] using same), rfl⟩
    | some cost' =>
      have member : "with".toList ∈ wordsOf (barred sources) ++ wordsOf (costly none) := by
        rw [same, wordsOf_costly]
        simp
      exact absurd (by simpa [costly] using member) (with_notMem_barred sources)
  | some cost =>
    cases threshold' with
    | none =>
      have member : "with".toList ∈ wordsOf (barred others) ++ wordsOf (costly none) := by
        rw [← same, wordsOf_costly]
        simp
      exact absurd (by simpa [costly] using member) (with_notMem_barred others)
    | some cost' =>
      rw [wordsOf_costly, wordsOf_costly] at same
      obtain ⟨front, back⟩ := List.append_inj' same rfl
      have costs : cost = cost' := by simpa using back
      exact ⟨lists front, congrArg some costs⟩

/-! ## Sources -/

/-- Effects that agree but for what they do have the same clause exactly if their deeds have the
same words. -/
theorem effectText_eq_iff (target : Target) (condition : Option Condition) {deed other : Deed}
    (duration : deed.duration = other.duration) :
    (effectText ⟨target, deed, condition⟩).value = (effectText ⟨target, other, condition⟩).value ↔
      wordsOf (deedFragments target deed).value = wordsOf (deedFragments target other).value := by
  have clauses := @clause_eq_iff_of_deed true ⟨target, deed, condition⟩ ⟨target, other, condition⟩
  exact clauses duration rfl

/-- Immunities that agree but for their sources have the same clause exactly if they have the same
sources, in the same order and as often. Protections from being targeted that agree but for what
they protect from have the same clause exactly if they have the same sources, and the same threshold
or none. -/
theorem sources_told_apart (target : Target) (condition : Option Condition) :
    (∀ (duration : Duration) (sources others : List ImmunitySource),
      (effectText ⟨target, .standing (.immunity sources) duration, condition⟩).value =
          (effectText ⟨target, .standing (.immunity others) duration, condition⟩).value ↔
        sources = others) ∧
    ∀ (duration : Option Duration) (sources others : List TargetingSource)
      (threshold threshold' : Option UInt32),
      (effectText ⟨target, .act (.cannotBeTargeted sources threshold) duration, condition⟩).value =
          (effectText
            ⟨target, .act (.cannotBeTargeted others threshold') duration, condition⟩).value ↔
        sources = others ∧ threshold = threshold' := by
  constructor
  · intro duration sources others
    have alike : (Deed.standing (.immunity sources) duration).duration =
        (Deed.standing (.immunity others) duration).duration := rfl
    rw [effectText_eq_iff target condition alike]
    constructor
    · intro same
      exact immunity_told_apart same
    · rintro rfl
      rfl
  · intro duration sources others threshold threshold'
    have alike : (Deed.act (.cannotBeTargeted sources threshold) duration).duration =
        (Deed.act (.cannotBeTargeted others threshold') duration).duration := rfl
    rw [effectText_eq_iff target condition alike]
    constructor
    · intro same
      exact protection_told_apart same
    · rintro ⟨rfl, rfl⟩
      rfl

end Describe

end RulesText
