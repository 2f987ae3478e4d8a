import RulesText.Proofs.Tidy

/-!
# Collapsing as a normal form

The words of a text come from cutting it at its blanks. Here the maximal runs of visible characters
are told from the text alone (`Runs`): every text has one list of them, and that list is its words.
Collapsing is then a normal form. Of all texts with the same runs the collapsed one is the only one
that is empty or tidy, and texts with a gap of blanks between them can be collapsed one by one.
-/

namespace RulesText.Text

/-! ## Maximal runs -/

/-- The maximal runs of visible characters of a text, in order. A run comes after blanks, or none,
and goes on up to a blank or to the end of the text, so there is a blank between any two runs. -/
inductive Runs : List Char → List (List Char) → Prop
  | bare {gap : List Char} (blank : ∀ c ∈ gap, isBlank c = true) : Runs gap []
  | run {gap word rest : List Char} {others : List (List Char)}
      (blank : ∀ c ∈ gap, isBlank c = true) (solid : Solid word)
      (stops : ∀ c ∈ rest.head?, isBlank c = true) (more : Runs rest others) :
      Runs (gap ++ (word ++ rest)) (word :: others)

theorem Runs.cons_blank {c : Char} {text : List Char} {parts : List (List Char)}
    (space : isBlank c = true) (runs : Runs text parts) : Runs (c :: text) parts := by
  cases runs with
  | bare blank => exact .bare (List.forall_mem_cons.2 ⟨space, blank⟩)
  | run blank solid stops more =>
    exact .run (List.forall_mem_cons.2 ⟨space, blank⟩) solid stops more

/-- A visible character begins a run of its own in front of a blank, and otherwise belongs to the
run that the text begins with. -/
theorem Runs.cons_visible {c : Char} {text : List Char} {parts : List (List Char)}
    (visible : isBlank c = false) (runs : Runs text parts) :
    ∃ others, Runs (c :: text) others := by
  have alone : Solid [c] := ⟨by simp, by simpa using visible⟩
  have noGap : ∀ b ∈ ([] : List Char), isBlank b = true := by simp
  cases runs with
  | bare blank =>
    have stops : ∀ b ∈ text.head?, isBlank b = true := fun b first =>
      blank b (List.mem_of_head? first)
    exact ⟨[[c]], .run noGap alone stops (.bare blank)⟩
  | @run gap word rest others blank solid stops more =>
    -- Only without a gap does the character touch the run behind it.
    cases gap with
    | nil =>
      have longer : Solid (c :: word) :=
        ⟨by simp, List.forall_mem_cons.2 ⟨visible, solid.solid⟩⟩
      exact ⟨(c :: word) :: others, .run noGap longer stops more⟩
    | cons b gap =>
      have parted : ∀ d ∈ (b :: gap ++ (word ++ rest)).head?, isBlank d = true := by
        simpa using blank b List.mem_cons_self
      exact ⟨[c] :: word :: others, .run noGap alone parted (.run blank solid stops more)⟩

/-- Every text is made of runs. -/
theorem exists_runs (text : List Char) : ∃ parts, Runs text parts := by
  induction text with
  | nil => exact ⟨[], .bare (by simp)⟩
  | cons c text ih =>
    obtain ⟨parts, runs⟩ := ih
    cases look : isBlank c with
    | true => exact ⟨parts, runs.cons_blank look⟩
    | false => exact runs.cons_visible look

/-- Blanks in front of a text add nothing to its words. -/
theorem words_blank_append {gap : List Char} (blank : ∀ c ∈ gap, isBlank c = true)
    (text : List Char) : words (gap ++ text) = words text := by
  rw [words_append_of_last fun c final => blank c (List.mem_of_getLast? final),
    (words_eq_nil_iff gap).2 blank, List.nil_append]

theorem Runs.words_eq {text : List Char} {parts : List (List Char)} (runs : Runs text parts) :
    words text = parts := by
  induction runs with
  | bare blank => exact (words_eq_nil_iff _).2 blank
  | run blank solid stops _ ih =>
    rw [words_blank_append blank, words_append_of_head stops, words_of_solid solid, ih,
      List.singleton_append]

/-- The words of a text are its maximal runs, and it has no others. -/
theorem runs_iff (text : List Char) (parts : List (List Char)) :
    Runs text parts ↔ words text = parts := by
  refine ⟨Runs.words_eq, ?_⟩
  rintro rfl
  -- Some list describes the text, and whatever list does so is the list of words.
  obtain ⟨parts, runs⟩ := exists_runs text
  exact runs.words_eq ▸ runs

theorem existsUnique_runs (text : List Char) : ∃! parts, Runs text parts :=
  ⟨words text, (runs_iff text _).2 rfl, fun _ also => also.words_eq.symm⟩

/-- Texts have the same runs if they have the same words. -/
theorem same_runs_iff (text other : List Char) :
    (∀ parts, Runs text parts ↔ Runs other parts) ↔ words text = words other := by
  simp only [runs_iff]
  constructor
  · intro same
    exact ((same (words text)).1 rfl).symm
  · intro same parts
    rw [same]

/-! ## The normal form -/

/-- Collapsing a text gives the only text that is empty or tidy and has the runs of the text. -/
theorem collapse_eq_iff_runs (text other : String) :
    collapse text = other ↔
      (other = "" ∨ Tidy other.toList) ∧
        ∀ parts, Runs other.toList parts ↔ Runs text.toList parts := by
  rw [same_runs_iff]
  constructor
  · rintro rfl
    exact ⟨or_iff_not_imp_left.2 tidy_collapse, words_collapse text⟩
  · rintro ⟨settled, same⟩
    have unchanged : collapse other = other := by
      rcases settled with rfl | tidy
      · rfl
      · exact tidy.collapse_eq
    rw [← unchanged, collapse_eq_iff, same]

/-! ## Splicing -/

/-- A gap of blanks parts the words of a text, however long it is. -/
theorem words_append_gap {gap : List Char} (some : gap ≠ [])
    (blank : ∀ c ∈ gap, isBlank c = true) (front back : List Char) :
    words (front ++ (gap ++ back)) = words front ++ words back := by
  have starts : ∀ c ∈ (gap ++ back).head?, isBlank c = true := by
    intro c first
    rw [List.head?_append_of_ne_nil gap some] at first
    exact blank c (List.mem_of_head? first)
  rw [words_append_of_head starts, words_blank_append blank]

/-- Texts with a gap of blanks between them make the sentence of the two. -/
theorem collapse_append_gap {gap : String} (some : gap ≠ "")
    (blank : ∀ c ∈ gap.toList, isBlank c = true) (front back : String) :
    collapse (front ++ gap ++ back) = sentence [front, back] := by
  have parted := words_append_gap (by simpa using some) blank front.toList back.toList
  rw [sentence, collapse_eq_iff, words_spaced, String.toList_append, String.toList_append,
    List.append_assoc, parted]
  simp

/-- Collapsing is a normal form that goes with splicing. Texts with blanks between them are
collapsed one by one, and a space joins those of which something is left. Collapsing again changes
nothing, and only an empty or a tidy text stays as it is. Every text has one list of maximal runs of
visible characters, and keeps it. -/
theorem collapse_normal_form :
    (∀ front gap back : String, gap ≠ "" → (∀ c ∈ gap.toList, isBlank c = true) →
      collapse (front ++ gap ++ back) =
        " ".intercalate ([collapse front, collapse back].filter (· ≠ ""))) ∧
      (∀ text, collapse (collapse text) = collapse text) ∧
      (∀ text, collapse text = text ↔ text = "" ∨ Tidy text.toList) ∧
      (∀ text : String, ∃! parts, Runs text.toList parts) ∧
      ∀ text parts, Runs (collapse text).toList parts ↔ Runs text.toList parts := by
  refine ⟨fun front gap back some blank => ?_, collapse_collapse, fun text => ?_,
    fun text => existsUnique_runs text.toList, fun text => ?_⟩
  · rw [collapse_append_gap some blank, sentence_eq]
    rfl
  · rw [collapse_eq_iff_runs]
    exact and_iff_left fun _ => Iff.rfl
  · exact ((collapse_eq_iff_runs text (collapse text)).1 rfl).2

/-- Several blanks between two texts, blanks at their ends, and a text of blanks alone. -/
theorem petals_normal_form :
    let front := "\tred\u3000 petals "
    let gap := "\u2003\n"
    let back := "of\u00A0 the rose\u2028"
    let bare := "\u0085 "
    (gap ≠ "" ∧ ∀ c ∈ gap.toList, isBlank c = true) ∧
      collapse (front ++ gap ++ back) = "red petals of the rose" ∧
      collapse (front ++ gap ++ bare) = "red petals" := by
  intro front gap back bare
  have some : gap ≠ "" := by decide
  have blank : ∀ c ∈ gap.toList, isBlank c = true := List.all_eq_true.1 (by decide)
  refine ⟨⟨some, blank⟩, ?_, ?_⟩
  · rw [collapse_normal_form.1 front gap back some blank]
    decide +kernel
  · rw [collapse_normal_form.1 front gap bare some blank]
    decide +kernel

end RulesText.Text
