import Mathlib.Data.List.DropRight
import RulesText.Proofs.Words
import RulesText.Text.Series

/-!
# Tidy texts put together

A tidy text is its words with one space between neighbours, so it stays as it is when it is
collapsed, and so do tidy texts that are joined by spaces, as a list or as clauses. That is why the
parts of a sentence survive in it as they are: the sentence is made of its fragments, each collapsed
on its own. A tidy text also stays in one piece when it is collapsed together with what stands
around it.
-/

namespace RulesText.Text

/-! ## Words of tidy texts -/

/-- The visible characters that a text begins with. -/
theorem exists_visible_front (text : List Char) : ∃ front back, front ++ back = text ∧
    (∀ c ∈ front, isBlank c = false) ∧ ∀ c ∈ back.head?, isBlank c = true := by
  refine ⟨_, _, List.takeWhile_append_dropWhile (p := (!isBlank ·)), fun c inside => ?_,
    fun c first => ?_⟩
  · simpa using List.mem_takeWhile_imp inside
  · have stopped := List.head?_dropWhile_not (!isBlank ·) text
    rw [Option.mem_def.1 first] at stopped
    simpa using stopped

/-- The visible characters that a text ends with. -/
theorem exists_visible_back (text : List Char) : ∃ front back, front ++ back = text ∧
    (∀ c ∈ front.getLast?, isBlank c = true) ∧ ∀ c ∈ back, isBlank c = false := by
  refine ⟨_, _, List.rdropWhile_append_rtakeWhile (p := (!isBlank ·)), fun c final => ?_,
    fun c inside => ?_⟩
  · obtain ⟨some, rfl⟩ := List.mem_getLast?_eq_getLast final
    simpa using List.rdropWhile_last_not (!isBlank ·) text some
  · simpa using List.mem_rtakeWhile_imp inside

/-- A space in a tidy text has something in front of it, and a tidy text behind it. -/
theorem Tidy.parts {front back : List Char} (tidy : Tidy (front ++ ' ' :: back)) :
    front ≠ [] ∧ Tidy back := by
  have blank : isBlank ' ' = true := by decide
  have more : back ≠ [] := by
    rintro rfl
    have final := tidy.last ' ' (by simp)
    rw [final] at blank
    cases blank
  refine ⟨?_, more, ?_, ?_, ?_, ?_⟩
  · rintro rfl
    have first := tidy.head ' ' rfl
    rw [first] at blank
    cases blank
  · intro c first
    obtain ⟨later, rfl⟩ := List.head?_eq_some_iff.1 first
    by_contra other
    obtain rfl : c = ' ' := tidy.spaces c (by simp) (by simpa using other)
    exact tidy.single ⟨front, later, by simp⟩
  · intro c final
    apply tidy.last c
    rwa [List.getLast?_append_of_ne_nil front (by simp), List.getLast?_cons_of_ne_nil more]
  · intro c inside
    exact tidy.spaces c (by simp [inside])
  · intro double
    apply tidy.single
    exact (List.infix_cons double).trans (List.suffix_append front _).isInfix

/-- A tidy text is a word, or a word and a tidy text with a space between them. -/
theorem Tidy.solid_or_split {text : List Char} (tidy : Tidy text) :
    Solid text ∨ ∃ word rest, Solid word ∧ Tidy rest ∧ text = word ++ ' ' :: rest := by
  obtain ⟨word, back, rfl, visible, stopped⟩ := exists_visible_front text
  cases back with
  | nil =>
    left
    rw [List.append_nil] at tidy ⊢
    exact ⟨tidy.nonempty, visible⟩
  | cons c rest =>
    right
    obtain rfl : c = ' ' := tidy.spaces c (by simp) (stopped c rfl)
    obtain ⟨begun, others⟩ := tidy.parts
    exact ⟨word, rest, ⟨begun, visible⟩, others, rfl⟩

/-- Induction on the words of a tidy text. -/
theorem Tidy.induction {motive : (text : List Char) → Tidy text → Prop}
    (word : ∀ word (solid : Solid word), motive word solid.tidy)
    (space : ∀ word rest (solid : Solid word) (others : Tidy rest), motive rest others →
      motive (word ++ ' ' :: rest) (others.cons_word solid))
    (text : List Char) (tidy : Tidy text) : motive text tidy := by
  rcases tidy.solid_or_split with solid | ⟨first, rest, solid, others, rfl⟩
  · exact word text solid
  · have shorter : rest.length < (first ++ ' ' :: rest).length := by
      rw [List.length_append, List.length_cons]
      omega
    exact space first rest solid others (Tidy.induction word space rest others)
termination_by text.length

/-- A tidy text is its words with one space between neighbours. -/
theorem Tidy.joined_words {text : List Char} (tidy : Tidy text) :
    [' '].intercalate (words text) = text := by
  induction text, tidy using Tidy.induction with
  | word word solid => rw [words_of_solid solid, List.intercalate_singleton]
  | space word rest solid others ih =>
    have some : words rest ≠ [] := by
      intro none
      rw [none] at ih
      exact others.nonempty ih.symm
    rw [words_append_blank (by decide), words_of_solid solid, List.singleton_append,
      List.intercalate_cons_of_ne_nil some, ih]
    simp

/-- Nothing of a tidy text is lost when it is collapsed. -/
theorem Tidy.collapse_eq {text : String} (tidy : Tidy text.toList) : collapse text = text := by
  rw [collapse, tidy.joined_words, String.ofList_toList]

theorem tidy_of_collapsed {text : String} (collapsed : collapse text = text)
    (nonempty : text ≠ "") : Tidy text.toList := by
  rw [← collapsed] at nonempty
  exact collapsed ▸ tidy_collapse nonempty

/-- Visible characters in front of a tidy text belong to its first word. -/
theorem Tidy.visible_append {front text : List Char} (visible : ∀ c ∈ front, isBlank c = false)
    (tidy : Tidy text) : Tidy (front ++ text) := by
  have longer {word : List Char} (solid : Solid word) : Solid (front ++ word) := by
    refine ⟨by simp [solid.nonempty], fun c inside => ?_⟩
    rcases List.mem_append.1 inside with before | own
    · exact visible c before
    · exact solid.solid c own
  rcases tidy.solid_or_split with solid | ⟨word, rest, solid, others, rfl⟩
  · exact (longer solid).tidy
  · rw [← List.append_assoc]
    exact others.cons_word (longer solid)

/-- Two tidy texts with a space between them are a tidy text. -/
theorem Tidy.append_space {front back : List Char} (tidy : Tidy front) (other : Tidy back) :
    Tidy (front ++ ' ' :: back) := by
  induction front, tidy using Tidy.induction with
  | word word solid => exact other.cons_word solid
  | space word rest solid others ih =>
    rw [List.append_assoc, List.cons_append]
    exact ih.cons_word solid

/-- Visible characters behind a tidy text belong to its last word. -/
theorem Tidy.append_visible {text back : List Char} (tidy : Tidy text)
    (visible : ∀ c ∈ back, isBlank c = false) : Tidy (text ++ back) := by
  induction text, tidy using Tidy.induction with
  | word word solid =>
    refine Solid.tidy ⟨by simp [solid.nonempty], fun c inside => ?_⟩
    rcases List.mem_append.1 inside with own | behind
    · exact solid.solid c own
    · exact visible c behind
  | space word rest solid others ih =>
    rw [List.append_assoc, List.cons_append]
    exact ih.cons_word solid

theorem Tidy.append_comma {text : List Char} (tidy : Tidy text) : Tidy (text ++ [',']) :=
  tidy.append_visible (List.forall_mem_singleton.2 (by decide))

/-! ## Pieces of collapsed texts -/

theorem prefix_joined {parts whole : List (List Char)} (begins : parts <+: whole) :
    [' '].intercalate parts <+: [' '].intercalate whole := by
  obtain ⟨behind, rfl⟩ := begins
  induction parts with
  | nil => simp
  | cons part parts ih =>
    by_cases none : parts = []
    · by_cases last : behind = []
      · simp [none, last]
      · simp [none, List.intercalate_cons_of_ne_nil last, List.append_assoc]
    · rw [List.cons_append, List.intercalate_cons_of_ne_nil none,
        List.intercalate_cons_of_ne_nil (by simp [none])]
      exact (List.prefix_append_right_inj _).2 ih

theorem suffix_joined {parts whole : List (List Char)} (ends : parts <:+ whole) :
    [' '].intercalate parts <:+ [' '].intercalate whole := by
  obtain ⟨before, rfl⟩ := ends
  induction before with
  | nil => exact List.suffix_refl _
  | cons part before ih =>
    by_cases none : before ++ parts = []
    · simp [List.append_eq_nil_iff.1 none]
    · rw [List.cons_append, List.intercalate_cons_of_ne_nil none]
      exact ih.trans (List.suffix_append _ _)

/-- Parts that stand side by side in a whole stay so when they are joined. -/
theorem infix_joined {parts whole : List (List Char)} (inside : parts <:+: whole) :
    [' '].intercalate parts <:+: [' '].intercalate whole := by
  obtain ⟨before, behind, rfl⟩ := inside
  have front := prefix_joined (List.prefix_append parts behind)
  have back := suffix_joined (List.suffix_append before (parts ++ behind))
  rw [List.append_assoc]
  exact front.isInfix.trans back.isInfix

/-- A tidy piece of a text stays in one piece when the text is collapsed. -/
theorem Tidy.infix_collapse {piece : List Char} {text : String} (tidy : Tidy piece)
    (inside : piece <:+: text.toList) : piece <:+: (collapse text).toList := by
  obtain ⟨before, behind, split⟩ := inside
  obtain ⟨start, front, rfl, startBlank, frontVisible⟩ := exists_visible_back before
  obtain ⟨back, rest, rfl, backVisible, restBlank⟩ := exists_visible_front behind
  -- With the visible characters next to it, the piece is whole words.
  have whole : Tidy (front ++ (piece ++ back)) :=
    (tidy.append_visible backVisible).visible_append frontVisible
  have parted : words start ++ words (front ++ (piece ++ back)) ++ words rest =
      words text.toList := by
    rw [← words_append_of_last startBlank, ← words_append_of_head restBlank, ← split]
    simp only [List.append_assoc]
  have joined := infix_joined ⟨words start, words rest, parted⟩
  rw [whole.joined_words, ← toList_collapse] at joined
  exact (List.infix_append' front piece back).trans joined

/-! ## Lists of tidy texts -/

/-- Tidy texts with spaces between them are a tidy text. -/
theorem tidy_intercalate {parts : List (List Char)} (some : parts ≠ [])
    (tidy : ∀ part ∈ parts, Tidy part) : Tidy ([' '].intercalate parts) := by
  induction parts with
  | nil => exact absurd rfl some
  | cons part parts ih =>
    have first := tidy part List.mem_cons_self
    by_cases none : parts = []
    · rw [none, List.intercalate_singleton]
      exact first
    · have others := ih none fun other member => tidy other (List.mem_cons_of_mem part member)
      rw [List.intercalate_cons_of_ne_nil none, List.append_assoc]
      exact first.append_space others

/-- Items of a list are tidy together if they are tidy each, and if the word before the last of them
keeps them apart. -/
theorem tidy_series {last : String} {items : List String} (some : items ≠ [])
    (tidy : ∀ item ∈ items, Tidy item.toList)
    (joins : ∀ {front back}, Tidy front → Tidy back → Tidy (front ++ (last.toList ++ back))) :
    Tidy (series last items).toList := by
  match items with
  | [] => exact absurd rfl some
  | [item] => exact tidy item List.mem_cons_self
  | [item, final] =>
    rw [series, String.toList_append, String.toList_append, List.append_assoc]
    exact joins (tidy item (by simp)) (tidy final (by simp))
  | item :: second :: third :: rest =>
    have others : Tidy (series last (second :: third :: rest)).toList :=
      tidy_series (by simp) (fun other member => tidy other (List.mem_cons_of_mem item member)) joins
    have joined := (tidy item List.mem_cons_self).append_comma.append_space others
    simpa [series] using joined

/-- A word, perhaps with visible characters in front of it, keeps two texts apart if there are
spaces around it. -/
theorem Tidy.append_word {front word back : List Char} (tidy : Tidy front) (solid : Solid word)
    (other : Tidy back) : Tidy (front ++ (' ' :: word ++ ' ' :: back)) :=
  tidy.append_space (other.cons_word solid)

/-- Clauses that are tidy each are tidy together. -/
theorem tidy_clauses {texts : List String} (some : texts ≠ [])
    (tidy : ∀ text ∈ texts, Tidy text.toList) : Tidy (clauses texts).toList := by
  have conj : Solid "and".toList := by decide
  unfold clauses
  split
  · rename_i first second
    rw [String.toList_append, String.toList_append, List.append_assoc]
    exact (tidy first (by simp)).append_word conj (tidy second (by simp))
  · apply tidy_series some tidy
    intro front back before behind
    have joined := before.append_comma.append_word conj behind
    simpa using joined

/-! ## Sentences -/

/-- Collapsing texts, and leaving out those of which nothing is left, leaves their words alone. -/
theorem flatMap_words_collapse (texts : List String) :
    (((texts.map collapse).filter (· ≠ "")).flatMap fun text => words text.toList) =
      texts.flatMap fun text => words text.toList := by
  induction texts with
  | nil => rfl
  | cons text texts ih =>
    rw [List.map_cons, List.flatMap_cons]
    by_cases empty : collapse text = ""
    · rw [List.filter_cons_of_neg (by simpa using empty), ih, (collapse_eq_empty_iff text).1 empty,
        List.nil_append]
    · rw [List.filter_cons_of_pos (by simpa using empty), List.flatMap_cons, words_collapse, ih]

/-- A sentence is its fragments, each collapsed, with one space between those of which something is
left. -/
theorem sentence_eq (fragments : List String) :
    sentence fragments = " ".intercalate ((fragments.map collapse).filter (· ≠ "")) := by
  have same := flatMap_words_collapse fragments
  have tidy : ∀ part ∈ (fragments.map collapse).filter (· ≠ ""), Tidy part.toList := by
    intro part member
    obtain ⟨listed, nonempty⟩ := List.mem_filter.1 member
    obtain ⟨fragment, _, rfl⟩ := List.mem_map.1 listed
    exact tidy_collapse (by simpa using nonempty)
  generalize (fragments.map collapse).filter (· ≠ "") = parts at same tidy
  have settled : collapse (" ".intercalate parts) = " ".intercalate parts := by
    by_cases none : parts = []
    · rw [none]
      rfl
    · apply Tidy.collapse_eq
      rw [String.toList_intercalate]
      exact tidy_intercalate (by simpa using none) (by simpa using tidy)
  rw [← settled, sentence, collapse_eq_iff, words_spaced, words_spaced, same]

end RulesText.Text
