import Mathlib.Data.List.Infix
import RulesText.Proofs.Words
import RulesText.Text.Series

/-!
# Lists are read back

A list is told by its text. In a list of nouns a comma stands from three items on, the word before
the last item from two on, and neither stands in an item, so the first comma, or else the word,
shows where the first item ends. Clauses have a comma before that word too, unless they are two.
-/

namespace RulesText.Text

/-! ## Where a separator begins -/

theorem append_cons_eq_iff {α : Type} {a : α} {front front' back back' : List α}
    (foreign : a ∉ front) (foreign' : a ∉ front') :
    front ++ a :: back = front' ++ a :: back' ↔ front = front' ∧ back = back' := by
  constructor
  · intro same
    rcases List.append_eq_append_iff.1 same with ⟨between, rfl, behind⟩ | ⟨between, rfl, behind⟩
    · cases between with
      | nil => exact ⟨by simp, by simpa using behind⟩
      | cons first between =>
        obtain rfl : a = first := (List.cons.inj behind).1
        simp at foreign'
    · cases between with
      | nil => exact ⟨by simp, by simpa using behind.symm⟩
      | cons first between =>
        obtain rfl : a = first := (List.cons.inj behind).1
        simp at foreign
  · rintro ⟨rfl, rfl⟩
    rfl

/-- A word and a space at the beginning of a text come before every other space of it. -/
theorem word_prefix_of_space {word between back back' : List Char} (solid : ' ' ∉ word)
    (same : word ++ ' ' :: back = between ++ ' ' :: back') : word <+: between := by
  rcases List.append_eq_append_iff.1 same with ⟨more, rfl, _⟩ | ⟨more, rfl, behind⟩
  · exact List.prefix_append word more
  · cases more with
    | nil => simp
    | cons first more =>
      obtain rfl : ' ' = first := (List.cons.inj behind).1
      simp at solid

/-- A text without a word ends where the word first stands between spaces. -/
theorem append_word_eq_iff {word front front' back back' : List Char} (solid : ' ' ∉ word)
    (foreign : ¬ word <:+: front) (foreign' : ¬ word <:+: front') :
    front ++ ' ' :: (word ++ ' ' :: back) = front' ++ ' ' :: (word ++ ' ' :: back') ↔
      front = front' ∧ back = back' := by
  have inside {start between : List Char} (begins : word <+: between) :
      word <:+: start ++ ' ' :: between :=
    (List.infix_cons begins.isInfix).trans (List.suffix_append start _).isInfix
  constructor
  · intro same
    rcases List.append_eq_append_iff.1 same with ⟨between, rfl, behind⟩ | ⟨between, rfl, behind⟩
    · cases between with
      | nil => exact ⟨by simp, by simpa using behind⟩
      | cons first between =>
        obtain ⟨rfl, rest⟩ := List.cons.inj behind
        exact absurd (inside (word_prefix_of_space solid rest)) foreign'
    · cases between with
      | nil => exact ⟨by simp, by simpa using behind.symm⟩
      | cons first between =>
        obtain ⟨rfl, rest⟩ := List.cons.inj behind
        exact absurd (inside (word_prefix_of_space solid rest)) foreign
  · rintro ⟨rfl, rfl⟩
    rfl

/-! ## Lists of nouns -/

/-- A character of a list is one of an item or of a separator. -/
theorem mem_series {last : String} {items : List String} {c : Char}
    (inside : c ∈ (series last items).toList) :
    c ∈ ", ".toList ∨ c ∈ last.toList ∨ ∃ item ∈ items, c ∈ item.toList := by
  match items with
  | [] => simp [series] at inside
  | [item] => exact .inr (.inr ⟨item, List.mem_cons_self, inside⟩)
  | [item, final] =>
    simp only [series, String.toList_append, List.mem_append] at inside
    rcases inside with (first | word) | second
    · exact .inr (.inr ⟨item, by simp, first⟩)
    · exact .inr (.inl word)
    · exact .inr (.inr ⟨final, by simp, second⟩)
  | item :: second :: third :: rest =>
    simp only [series, String.toList_append, List.mem_append] at inside
    rcases inside with (first | comma) | later
    · exact .inr (.inr ⟨item, by simp, first⟩)
    · exact .inl comma
    · rcases mem_series later with comma | word | ⟨other, member, own⟩
      · exact .inl comma
      · exact .inr (.inl word)
      · exact .inr (.inr ⟨other, List.mem_cons_of_mem item member, own⟩)

/-- An item that cannot be taken for a part of the list around it: it is not empty, and neither a
comma nor the word before the last item stands in it. -/
structure Plain (word item : String) : Prop where
  nonempty : item ≠ ""
  comma : ',' ∉ item.toList
  word : ¬ word.toList <:+: item.toList

theorem plain_iff (word item : String) : Plain word item ↔
    item ≠ "" ∧ ',' ∉ item.toList ∧ ¬ word.toList <:+: item.toList :=
  ⟨fun ⟨nonempty, comma, word⟩ => ⟨nonempty, comma, word⟩,
    fun ⟨nonempty, comma, word⟩ => ⟨nonempty, comma, word⟩⟩

instance (word : String) : DecidablePred (Plain word) :=
  fun item => decidable_of_iff _ (plain_iff word item).symm

variable {word : String}

theorem series_eq_empty_iff {items : List String} (plain : ∀ item ∈ items, Plain word item) :
    series (" " ++ word ++ " ") items = "" ↔ items = [] := by
  match items with
  | [] => simp [series]
  | [item] => simpa [series] using (plain item List.mem_cons_self).nonempty
  | [item, final] => simp [series]
  | item :: second :: third :: rest => simp [series]

/-- There is a comma from three items on. -/
theorem comma_mem_series_iff {items : List String} (foreign : ',' ∉ word.toList)
    (plain : ∀ item ∈ items, Plain word item) :
    ',' ∈ (series (" " ++ word ++ " ") items).toList ↔ 3 ≤ items.length := by
  match items with
  | [] => simp [series]
  | [item] => simpa [series] using (plain item List.mem_cons_self).comma
  | [item, final] =>
    simp [series, foreign, (plain item (by simp)).comma, (plain final (by simp)).comma]
  | item :: second :: third :: rest => simp [series]

/-- The word stands before the last item from two items on. -/
theorem word_infix_series_iff {items : List String} (nonempty : word ≠ "")
    (plain : ∀ item ∈ items, Plain word item) :
    word.toList <:+: (series (" " ++ word ++ " ") items).toList ↔ 2 ≤ items.length := by
  match items with
  | [] => simpa [series] using nonempty
  | [item] => simpa [series] using (plain item List.mem_cons_self).word
  | [item, final] =>
    have inside := List.infix_append (item.toList ++ [' ']) word.toList (' ' :: final.toList)
    simpa [series] using inside
  | item :: second :: third :: rest =>
    have later : word.toList <:+:
        (series (" " ++ word ++ " ") (second :: third :: rest)).toList :=
      (word_infix_series_iff nonempty fun other member =>
        plain other (List.mem_cons_of_mem item member)).2 (by simp)
    have behind := later.trans (List.suffix_append (item.toList ++ [',', ' ']) _).isInfix
    simpa [series] using behind

/-- Plain items can be read back from their list. -/
theorem series_injective {items others : List String} (solid : Solid word.toList)
    (foreign : ',' ∉ word.toList) (plain : ∀ item ∈ items, Plain word item)
    (plain' : ∀ item ∈ others, Plain word item)
    (same : series (" " ++ word ++ " ") items = series (" " ++ word ++ " ") others) :
    items = others := by
  have begun : word ≠ "" := fun empty => solid.nonempty (by simp [empty])
  have space := solid.space_notMem
  have none := series_eq_empty_iff plain
  have two := word_infix_series_iff begun plain
  have three := comma_mem_series_iff foreign plain
  rw [same, series_eq_empty_iff plain'] at none
  rw [same, word_infix_series_iff begun plain'] at two
  rw [same, comma_mem_series_iff foreign plain'] at three
  match items, others with
  | [], [] => rfl
  | [item], [item'] => rw [show item = item' from same]
  | [item, final], [item', final'] =>
    have first := plain item List.mem_cons_self
    have first' := plain' item' List.mem_cons_self
    have texts := congrArg String.toList same
    simp only [series, String.toList_append, List.append_assoc] at texts
    obtain ⟨front, back⟩ := (append_word_eq_iff space first.word first'.word).1 texts
    rw [String.toList_inj.1 front, String.toList_inj.1 back]
  | item :: second :: third :: rest, item' :: second' :: third' :: rest' =>
    have first := plain item List.mem_cons_self
    have first' := plain' item' List.mem_cons_self
    have texts := congrArg String.toList same
    simp only [series, String.toList_append, List.append_assoc] at texts
    obtain ⟨front, back⟩ := (append_cons_eq_iff first.comma first'.comma).1 texts
    have later := series_injective solid foreign
      (fun other member => plain other (List.mem_cons_of_mem item member))
      (fun other member => plain' other (List.mem_cons_of_mem item' member))
      (String.toList_inj.1 (List.cons.inj back).2)
    rw [String.toList_inj.1 front, later]
  | [], _ :: _ => simp at none
  | _ :: _, [] => simp at none
  | [_], _ :: _ :: _ => simp at two
  | _ :: _ :: _, [_] => simp at two
  | [_, _], _ :: _ :: _ :: _ => simp at three
  | _ :: _ :: _ :: _, [_, _] => simp at three

/-! ## Lists of clauses -/

/-- Where the word has a comma in front of it too, there is one between any two neighbours. -/
theorem count_commaSeries {items : List String} (foreign : ',' ∉ word.toList)
    (plain : ∀ item ∈ items, Plain word item) :
    (series (", " ++ word ++ " ") items).toList.count ',' = items.length - 1 := by
  have none {text : List Char} (other : ',' ∉ text) : text.count ',' = 0 :=
    List.count_eq_zero.2 other
  match items with
  | [] => rfl
  | [item] => exact none (plain item List.mem_cons_self).comma
  | [item, final] =>
    have first := none (plain item (by simp)).comma
    have second := none (plain final (by simp)).comma
    simp [series, none foreign, first, second]
  | item :: second :: third :: rest =>
    have plain' : ∀ other ∈ second :: third :: rest, Plain word other :=
      fun other member => plain other (List.mem_cons_of_mem item member)
    have later := count_commaSeries foreign plain'
    simp only [series, String.toList_append, List.count_append, later,
      none (plain item List.mem_cons_self).comma]
    simp
    omega

/-- Plain items can be read back from a list with a comma before its word. -/
theorem commaSeries_injective {items others : List String} (foreign : ',' ∉ word.toList)
    (plain : ∀ item ∈ items, Plain word item) (plain' : ∀ item ∈ others, Plain word item)
    (same : series (", " ++ word ++ " ") items = series (", " ++ word ++ " ") others) :
    items = others := by
  have length := count_commaSeries foreign plain
  rw [same, count_commaSeries foreign plain'] at length
  have texts := congrArg String.toList same
  match items, others with
  | [], [] => rfl
  | [], [item] => exact absurd same.symm (plain' item List.mem_cons_self).nonempty
  | [item], [] => exact absurd same (plain item List.mem_cons_self).nonempty
  | [item], [item'] => rw [show item = item' from same]
  | [item, final], [item', final'] =>
    have first := plain item List.mem_cons_self
    have first' := plain' item' List.mem_cons_self
    simp only [series, String.toList_append, List.append_assoc] at texts
    obtain ⟨front, back⟩ := (append_cons_eq_iff first.comma first'.comma).1 texts
    have behind : final.toList = final'.toList := by simpa using back
    rw [String.toList_inj.1 front, String.toList_inj.1 behind]
  | item :: second :: third :: rest, item' :: second' :: third' :: rest' =>
    have first := plain item List.mem_cons_self
    have first' := plain' item' List.mem_cons_self
    simp only [series, String.toList_append, List.append_assoc] at texts
    obtain ⟨front, back⟩ := (append_cons_eq_iff first.comma first'.comma).1 texts
    have later := commaSeries_injective foreign
      (fun other member => plain other (List.mem_cons_of_mem item member))
      (fun other member => plain' other (List.mem_cons_of_mem item' member))
      (String.toList_inj.1 (List.cons.inj back).2)
    rw [String.toList_inj.1 front, later]
  | [], _ :: _ :: _ | [_], _ :: _ :: _ | _ :: _ :: _, [] | _ :: _ :: _, [_]
  | [_, _], _ :: _ :: _ :: _ | _ :: _ :: _ :: _, [_, _] => simp at length

/-- Two clauses, which have no comma between them, are told from one clause and from more. -/
theorem pair_ne_commaSeries {first second : String} {others : List String}
    (foreign : ',' ∉ word.toList) (plain : ∀ item ∈ [first, second], Plain word item)
    (plain' : ∀ item ∈ others, Plain word item) (other : others.length ≠ 2) :
    series (" " ++ word ++ " ") [first, second] ≠ series (", " ++ word ++ " ") others := by
  intro same
  have comma : ',' ∉ (series (" " ++ word ++ " ") [first, second]).toList := by
    rw [comma_mem_series_iff foreign plain]
    simp
  have length := count_commaSeries foreign plain'
  rw [← same, List.count_eq_zero.2 comma] at length
  match others with
  | [] => simp [series] at same
  | [item] =>
    have inside : word.toList <:+: item.toList := by
      rw [← show _ = item from same]
      exact ⟨first.toList ++ [' '], ' ' :: second.toList, by simp [series]⟩
    exact (plain' item List.mem_cons_self).word inside
  | [_, _] => exact other rfl
  | _ :: _ :: _ :: _ => simp at length

/-- Clauses are a list with a comma before its word, unless they are two. -/
theorem clauses_eq {items : List String} (other : items.length ≠ 2) :
    clauses items = series ", and " items := by
  match items with
  | [] | [_] | _ :: _ :: _ :: _ => rfl
  | [_, _] => exact absurd rfl other

/-- Plain clauses can be read back from their sentence. -/
theorem clauses_injective {items others : List String} (plain : ∀ item ∈ items, Plain "and" item)
    (plain' : ∀ item ∈ others, Plain "and" item) (same : clauses items = clauses others) :
    items = others := by
  have foreign : ',' ∉ "and".toList := by decide
  by_cases two : items.length = 2 <;> by_cases two' : others.length = 2
  · obtain ⟨first, second, rfl⟩ := List.length_eq_two.1 two
    obtain ⟨first', second', rfl⟩ := List.length_eq_two.1 two'
    exact series_injective (by decide) foreign plain plain' same
  · obtain ⟨first, second, rfl⟩ := List.length_eq_two.1 two
    rw [clauses_eq two'] at same
    exact absurd same (pair_ne_commaSeries foreign plain plain' two')
  · obtain ⟨first, second, rfl⟩ := List.length_eq_two.1 two'
    rw [clauses_eq two] at same
    exact absurd same.symm (pair_ne_commaSeries foreign plain' plain two)
  · rw [clauses_eq two, clauses_eq two'] at same
    exact commaSeries_injective foreign plain plain' same

/-! ## All lists -/

/-- Lists are told by their texts, however long they are: clauses and conjunctions of items in which
neither a comma nor `and` stands, and disjunctions of items in which neither a comma nor `or` does.
No item is empty. -/
theorem lists_read_back :
    (∀ items others : List String, (∀ item ∈ items, Plain "and" item) →
      (∀ item ∈ others, Plain "and" item) →
        (clauses items = clauses others ↔ items = others) ∧
        (conjunction items = conjunction others ↔ items = others)) ∧
    ∀ items others : List String, (∀ item ∈ items, Plain "or" item) →
      (∀ item ∈ others, Plain "or" item) →
        (disjunction items = disjunction others ↔ items = others) := by
  refine ⟨fun items others plain plain' => ⟨⟨clauses_injective plain plain', ?_⟩, ?_, ?_⟩,
    fun items others plain plain' => ⟨?_, ?_⟩⟩
  · exact congrArg clauses
  · exact series_injective (by decide) (by decide) plain plain'
  · exact congrArg conjunction
  · exact series_injective (by decide) (by decide) plain plain'
  · exact congrArg disjunction

/-- Clauses that look alike at first, nouns in another order, and a noun that is repeated. -/
theorem short_lists_read_back :
    clauses ["heal 1", "draw 1 card", "heal 1 draw"] ≠
      clauses ["heal 1", "draw 1 card heal 1 draw"] ∧
    conjunction ["damage", "spells"] ≠ conjunction ["spells", "damage"] ∧
    disjunction ["traps", "spells"] ≠ disjunction ["traps", "spells", "spells"] := by
  obtain ⟨both, each⟩ := lists_read_back
  have clausal := both ["heal 1", "draw 1 card", "heal 1 draw"]
    ["heal 1", "draw 1 card heal 1 draw"] (by decide +kernel) (by decide +kernel)
  have nominal := both ["damage", "spells"] ["spells", "damage"] (by decide +kernel)
    (by decide +kernel)
  have alternative := each ["traps", "spells"] ["traps", "spells", "spells"] (by decide +kernel)
    (by decide +kernel)
  exact ⟨fun same => absurd (clausal.1.1 same) (by decide),
    fun same => absurd (nominal.2.1 same) (by decide),
    fun same => absurd (alternative.1 same) (by decide)⟩

end RulesText.Text
