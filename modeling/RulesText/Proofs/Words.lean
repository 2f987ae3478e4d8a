import Mathlib.Data.List.Basic
import RulesText.Text.Blank
import RulesText.Text.Uppercase

/-!
# Words and tidy texts

Blanks only part the words of a text, so putting texts together with blanks between them puts their
words together, and collapsing a text leaves its words alone. What comes of it is empty or tidy: it
begins and ends with a character that is not blank, and its only blanks are single spaces.
-/

namespace RulesText.Text

/-! ## Words -/

/-- A word: it has a character, and none of its characters is blank. -/
structure Solid (word : List Char) : Prop where
  nonempty : word ≠ []
  solid : ∀ c ∈ word, isBlank c = false

theorem solid_iff (word : List Char) :
    Solid word ↔ word ≠ [] ∧ word.all (!isBlank ·) = true := by
  simp only [List.all_eq_true, Bool.not_eq_true']
  exact ⟨fun ⟨nonempty, solid⟩ => ⟨nonempty, solid⟩, fun ⟨nonempty, solid⟩ => ⟨nonempty, solid⟩⟩

instance : DecidablePred Solid := fun word => decidable_of_iff _ (solid_iff word).symm

theorem Solid.space_notMem {word : List Char} (solid : Solid word) : ' ' ∉ word := by
  intro inside
  have visible := solid.solid ' ' inside
  revert visible
  decide

@[simp] theorem words_nil : words [] = [] := by
  simp [words]

/-- A blank parts the words in front of it from those behind it. -/
theorem words_append_blank {c : Char} (blank : isBlank c = true) (front back : List Char) :
    words (front ++ c :: back) = words front ++ words back := by
  unfold words
  rw [List.splitOnP_append_cons front back blank, List.filter_append]

theorem words_cons_blank {c : Char} (blank : isBlank c = true) (text : List Char) :
    words (c :: text) = words text := by
  simpa using words_append_blank blank [] text

theorem words_append_space (front back : String) :
    words (front ++ " " ++ back).toList = words front.toList ++ words back.toList := by
  rw [String.toList_append, String.toList_append, List.append_assoc]
  exact words_append_blank (by decide) front.toList back.toList

/-- A blank at the end of a text parts its words from those of the text that follows. -/
theorem words_append_of_last {front back : List Char}
    (blank : ∀ c ∈ front.getLast?, isBlank c = true) :
    words (front ++ back) = words front ++ words back := by
  rcases List.eq_nil_or_concat front with rfl | ⟨start, c, rfl⟩
  · simp
  · have space : isBlank c = true := blank c (by simp)
    rw [List.concat_eq_append, List.append_assoc, List.singleton_append,
      words_append_blank space, words_append_blank space start [], words_nil, List.append_nil]

/-- A blank in front of a text parts its words from those in front of the blank. -/
theorem words_append_of_head {front back : List Char}
    (blank : ∀ c ∈ back.head?, isBlank c = true) :
    words (front ++ back) = words front ++ words back := by
  cases back with
  | nil => simp
  | cons c back =>
    have space : isBlank c = true := blank c rfl
    rw [words_append_blank space, words_cons_blank space]

theorem words_of_solid {word : List Char} (solid : Solid word) : words word = [word] := by
  have nonempty := solid.nonempty
  unfold words
  rw [List.splitOnP_eq_singleton solid.solid]
  simp [nonempty]

theorem solid_of_mem_splitOnP {text piece : List Char} (member : piece ∈ text.splitOnP isBlank) :
    ∀ c ∈ piece, isBlank c = false := by
  induction text generalizing piece with
  | nil =>
    obtain rfl : piece = [] := by simpa using member
    simp
  | cons first text ih =>
    rw [List.splitOnP_cons_eq_if_modifyHead] at member
    split at member
    · rcases List.mem_cons.1 member with rfl | later
      · simp
      · exact ih later
    · rename_i visible
      cases pieces : text.splitOnP isBlank with
      | nil =>
        rw [pieces] at member
        cases member
      | cons head others =>
        rw [pieces] at member ih
        rcases List.mem_cons.1 member with rfl | later
        · intro c inside
          rcases List.mem_cons.1 inside with rfl | more
          · simpa using visible
          · exact ih List.mem_cons_self c more
        · exact ih (List.mem_cons_of_mem head later)

theorem solid_of_mem_words {text word : List Char} (member : word ∈ words text) : Solid word := by
  obtain ⟨piece, nonempty⟩ := List.mem_filter.1 member
  exact ⟨by simpa using nonempty, solid_of_mem_splitOnP piece⟩

/-- Only blanks belong to no word. -/
theorem words_eq_nil_iff (text : List Char) : words text = [] ↔ ∀ c ∈ text, isBlank c = true := by
  constructor
  · intro none
    induction text with
    | nil => simp
    | cons first text ih =>
      by_cases blank : isBlank first = true
      · rw [words_cons_blank blank] at none
        intro c inside
        rcases List.mem_cons.1 inside with rfl | later
        · exact blank
        · exact ih none c later
      · -- The piece that begins with a visible character is not empty.
        exfalso
        unfold words at none
        rw [List.splitOnP_cons_eq_if_modifyHead, if_neg blank] at none
        cases pieces : text.splitOnP isBlank with
        | nil => exact List.splitOnP_ne_nil _ _ pieces
        | cons head others => simp [pieces] at none
  · intro blank
    induction text with
    | nil => exact words_nil
    | cons first text ih =>
      rw [words_cons_blank (blank first List.mem_cons_self)]
      exact ih fun c inside => blank c (List.mem_cons_of_mem first inside)

theorem words_ne_nil {text : List Char} {c : Char} (inside : c ∈ text)
    (visible : isBlank c = false) : words text ≠ [] := by
  intro none
  have blank := (words_eq_nil_iff text).1 none c inside
  rw [visible] at blank
  cases blank

/-- The characters of the words of a text are the characters of the text that are not blank. -/
theorem flatten_words (text : List Char) : (words text).flatten = text.filter (!isBlank ·) := by
  unfold words
  rw [List.flatten_filter_not_isEmpty]
  induction text with
  | nil => simp
  | cons c text ih =>
    rw [List.splitOnP_cons_eq_if_modifyHead]
    by_cases blank : isBlank c = true
    · simp [blank, ih]
    · cases pieces : text.splitOnP isBlank with
      | nil => exact absurd pieces (List.splitOnP_ne_nil _ _)
      | cons piece pieces =>
        rw [pieces, List.flatten_cons] at ih
        rw [if_neg blank, List.modifyHead_cons, List.flatten_cons, List.cons_append, ih,
          List.filter_cons_of_pos (by simpa using blank)]

/-- A word has only characters of its text. -/
theorem mem_of_mem_words {text word : List Char} (member : word ∈ words text) {c : Char}
    (inside : c ∈ word) : c ∈ text := by
  have visible : c ∈ (words text).flatten := List.mem_flatten.2 ⟨word, member, inside⟩
  rw [flatten_words] at visible
  exact (List.mem_filter.1 visible).1

/-- The words of texts with spaces between them are the words of each text in turn. -/
theorem words_intercalate (texts : List (List Char)) :
    words ([' '].intercalate texts) = texts.flatMap words := by
  induction texts with
  | nil => simp
  | cons text texts ih =>
    cases texts with
    | nil => simp
    | cons next texts =>
      rw [List.intercalate_cons_cons, List.append_assoc, List.singleton_append,
        words_append_blank (by decide), ih]
      rfl

theorem words_spaced (texts : List String) :
    words (" ".intercalate texts).toList = texts.flatMap fun text => words text.toList := by
  rw [String.toList_intercalate]
  exact (words_intercalate _).trans (List.flatMap_map _ _ _)

theorem words_joined {parts : List (List Char)} (solid : ∀ part ∈ parts, Solid part) :
    words ([' '].intercalate parts) = parts := by
  rw [words_intercalate]
  induction parts with
  | nil => rfl
  | cons part parts ih =>
    rw [List.flatMap_cons, words_of_solid (solid part List.mem_cons_self),
      ih fun other member => solid other (List.mem_cons_of_mem part member)]
    rfl

/-! ## Collapsed texts -/

theorem toList_collapse (text : String) :
    (collapse text).toList = [' '].intercalate (words text.toList) := by
  simp [collapse]

/-- Collapsing a text leaves its words alone. -/
theorem words_collapse (text : String) : words (collapse text).toList = words text.toList := by
  rw [toList_collapse]
  exact words_joined fun word member => solid_of_mem_words member

/-- Collapsed texts are the same if they have the same words. -/
theorem collapse_eq_iff (text other : String) :
    collapse text = collapse other ↔ words text.toList = words other.toList := by
  constructor
  · intro same
    rw [← words_collapse text, same, words_collapse]
  · intro same
    rw [collapse, same, collapse]

theorem collapse_eq_empty_iff (text : String) : collapse text = "" ↔ words text.toList = [] := by
  constructor
  · intro empty
    rw [← words_collapse, empty]
    exact words_nil
  · intro none
    simp [collapse, none]

/-- The words of a sentence are the words of its fragments in turn. -/
theorem words_sentence (fragments : List String) :
    words (sentence fragments).toList =
      fragments.flatMap fun fragment => words fragment.toList := by
  rw [sentence, words_collapse, words_spaced]

theorem sentence_eq_empty_iff (fragments : List String) :
    sentence fragments = "" ↔ ∀ fragment ∈ fragments, words fragment.toList = [] := by
  have collapsed := collapse_eq_empty_iff (" ".intercalate fragments)
  rw [← words_collapse, ← sentence, words_sentence] at collapsed
  rw [collapsed, List.flatMap_eq_nil_iff]

/-- A collapsed text is empty if nothing is left of it but blanks. -/
theorem words_eq_nil_iff_of_collapsed {text : String} (collapsed : collapse text = text) :
    words text.toList = [] ↔ text = "" := by
  rw [← collapse_eq_empty_iff, collapsed]

theorem collapse_collapse (text : String) : collapse (collapse text) = collapse text := by
  rw [collapse, words_collapse, collapse]

theorem collapse_sentence (fragments : List String) :
    collapse (sentence fragments) = sentence fragments :=
  collapse_collapse _

/-! ## Tidy texts -/

/-- Whether a text has something to show, begins and ends with it, and has no blanks but single
spaces. -/
structure Tidy (text : List Char) : Prop where
  nonempty : text ≠ []
  head : ∀ c ∈ text.head?, isBlank c = false
  last : ∀ c ∈ text.getLast?, isBlank c = false
  spaces : ∀ c ∈ text, isBlank c = true → c = ' '
  single : ¬ [' ', ' '] <:+: text

theorem Solid.tidy {word : List Char} (solid : Solid word) : Tidy word where
  nonempty := solid.nonempty
  head c first := solid.solid c (List.mem_of_head? first)
  last c final := solid.solid c (List.mem_of_getLast? final)
  spaces c inside blank := by
    rw [solid.solid c inside] at blank
    cases blank
  single double := solid.space_notMem (double.subset List.mem_cons_self)

/-- No two spaces meet where visible characters come before a text without them. -/
theorem not_double_append {front back : List Char} (visible : ∀ c ∈ front, isBlank c = false)
    (single : ¬ [' ', ' '] <:+: back) : ¬ [' ', ' '] <:+: front ++ back := by
  induction front with
  | nil => exact single
  | cons first front ih =>
    intro double
    rw [List.cons_append] at double
    rcases List.infix_cons_iff.1 double with begins | later
    · obtain rfl : ' ' = first := (List.cons_prefix_cons.1 begins).1
      have space := visible ' ' List.mem_cons_self
      revert space
      decide
    · exact ih (fun c inside => visible c (List.mem_cons_of_mem first inside)) later

/-- A word, a space and a tidy text are a tidy text. -/
theorem Tidy.cons_word {word text : List Char} (solid : Solid word) (tidy : Tidy text) :
    Tidy (word ++ ' ' :: text) where
  nonempty := by simp
  head c first := by
    refine solid.tidy.head c ?_
    rwa [List.head?_append_of_ne_nil word solid.nonempty] at first
  last c final := by
    refine tidy.last c ?_
    rwa [List.getLast?_append_of_ne_nil word (by simp), List.getLast?_cons,
      List.getLast?_eq_some_getLast tidy.nonempty, Option.getD_some,
      ← List.getLast?_eq_some_getLast tidy.nonempty] at final
  spaces c inside blank := by
    rcases List.mem_append.1 inside with front | back
    · exact solid.tidy.spaces c front blank
    · rcases List.mem_cons.1 back with rfl | later
      · rfl
      · exact tidy.spaces c later blank
  single := by
    refine not_double_append solid.solid fun double => ?_
    rcases List.infix_cons_iff.1 double with begins | later
    · obtain ⟨rest, rfl⟩ := (List.cons_prefix_cons.1 begins).2
      have visible := tidy.head ' ' rfl
      revert visible
      decide
    · exact tidy.single later

theorem tidy_joined {parts : List (List Char)} (some : parts ≠ [])
    (solid : ∀ part ∈ parts, Solid part) : Tidy ([' '].intercalate parts) := by
  induction parts with
  | nil => exact absurd rfl some
  | cons part parts ih =>
    have first := solid part List.mem_cons_self
    cases parts with
    | nil =>
      rw [List.intercalate_singleton]
      exact first.tidy
    | cons next parts =>
      have others := ih (by simp) fun other member => solid other (List.mem_cons_of_mem part member)
      rw [List.intercalate_cons_cons, List.append_assoc, List.singleton_append]
      exact others.cons_word first

/-- A collapsed text that is not empty is tidy. -/
theorem tidy_collapse {text : String} (nonempty : collapse text ≠ "") :
    Tidy (collapse text).toList := by
  rw [toList_collapse]
  refine tidy_joined (fun none => nonempty ?_) fun word member => solid_of_mem_words member
  exact (collapse_eq_empty_iff text).2 none

/-! ## Capitals -/

/-- The code points of the blank characters. -/
def blankCodes : List Nat :=
  [9, 10, 11, 12, 13, 0x20, 0x85, 0xA0, 0x1680, 0x2000, 0x2001, 0x2002, 0x2003, 0x2004, 0x2005,
    0x2006, 0x2007, 0x2008, 0x2009, 0x200A, 0x2028, 0x2029, 0x202F, 0x205F, 0x3000]

theorem isBlank_iff (c : Char) : isBlank c = true ↔ c.toNat ∈ blankCodes := by
  simp only [isBlank, blankCodes, Bool.or_eq_true, Bool.and_eq_true, decide_eq_true_eq, beq_iff_eq,
    List.mem_cons, List.not_mem_nil, or_false]
  omega

theorem isBlank_ofNat {code : Nat} (other : code ∉ blankCodes) :
    isBlank (Char.ofNat code) = false := by
  have visible : ¬ isBlank (Char.ofNat code) = true := by
    rw [isBlank_iff, Char.ofNat]
    by_cases valid : code.isValidChar
    · rw [dif_pos valid]
      exact other
    · rw [dif_neg valid]
      decide
  simpa using visible

/-- The uppercase of no character that is listed with its expansion is blank or missing. -/
theorem caseExpansions_visible :
    ∀ entry ∈ caseExpansions, entry.2 ≠ [] ∧ ∀ code ∈ entry.2, code ∉ blankCodes := by
  decide +kernel

/-- No run of characters has a blank uppercase. -/
theorem caseRuns_visible : ∀ run ∈ caseRuns, ∀ code ∈ blankCodes,
    code < run.upper ∨ run.upper + (run.last - run.first) < code := by
  decide +kernel

theorem CaseRun.upperOf?_visible {run : CaseRun} (listed : run ∈ caseRuns) {code upper : Nat}
    (found : run.upperOf? code = some upper) : upper ∉ blankCodes := by
  unfold upperOf? at found
  split at found
  · rename_i inside
    cases found
    intro blank
    have apart := caseRuns_visible run listed _ blank
    omega
  · cases found

theorem uppercaseCodes_visible {code : Nat} (visible : code ∉ blankCodes) :
    uppercaseCodes code ≠ [] ∧ ∀ upper ∈ uppercaseCodes code, upper ∉ blankCodes := by
  unfold uppercaseCodes
  split
  · rename_i codes found
    obtain ⟨front, back, split, _⟩ := List.lookup_eq_some_iff.1 found
    have listed : (code, codes) ∈ caseExpansions := by
      rw [split]
      simp
    exact caseExpansions_visible _ listed
  · refine ⟨by simp, fun upper member => ?_⟩
    obtain rfl := List.mem_singleton.1 member
    cases found : caseRuns.findSome? (·.upperOf? code) with
    | none => exact visible
    | some upper =>
      obtain ⟨run, listed, moved⟩ := List.exists_of_findSome?_eq_some found
      exact CaseRun.upperOf?_visible listed moved

/-- The uppercase of a character that is not blank is a word. -/
theorem uppercase_solid {c : Char} (visible : isBlank c = false) : Solid (uppercase c) := by
  have other : c.toNat ∉ blankCodes := by
    rw [← isBlank_iff, visible]
    exact Bool.false_ne_true
  obtain ⟨nonempty, each⟩ := uppercaseCodes_visible other
  refine ⟨by simpa [uppercase] using nonempty, fun upper member => ?_⟩
  obtain ⟨code, listed, rfl⟩ := List.mem_map.1 member
  exact isBlank_ofNat (each code listed)

/-- A text stays tidy when a word takes the place of its first character. -/
theorem Tidy.replace_head {c : Char} {word rest : List Char} (tidy : Tidy (c :: rest))
    (solid : Solid word) : Tidy (word ++ rest) where
  nonempty := by simp [solid.nonempty]
  head d first := by
    refine solid.tidy.head d ?_
    rwa [List.head?_append_of_ne_nil word solid.nonempty] at first
  last d final := by
    rcases rest with _ | ⟨next, rest⟩
    · rw [List.append_nil] at final
      exact solid.tidy.last d final
    · refine tidy.last d ?_
      rwa [List.getLast?_append_of_ne_nil word (by simp)] at final
  spaces d inside blank := by
    rcases List.mem_append.1 inside with front | back
    · exact solid.tidy.spaces d front blank
    · exact tidy.spaces d (List.mem_cons_of_mem c back) blank
  single := not_double_append solid.solid fun double =>
    tidy.single (List.infix_cons double)

/-- A tidy text is tidy with a capital. -/
theorem Tidy.capitalize {text : String} (tidy : Tidy text.toList) :
    Tidy (capitalize text).toList := by
  unfold Text.capitalize
  cases split : text.toList with
  | nil => exact absurd split tidy.nonempty
  | cons c rest =>
    rw [split] at tidy
    rw [String.toList_ofList]
    exact tidy.replace_head (uppercase_solid (tidy.head c rfl))

end RulesText.Text
