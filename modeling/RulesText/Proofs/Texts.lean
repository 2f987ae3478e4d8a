import RulesText.Proofs.Printing
import RulesText.Proofs.Scanned
import RulesText.Proofs.Walks

/-!
# The texts of a document

A well-formed text is the text of one document. The other half of what the scanner does: whenever
the document that it finds can be passed over from its beginning to its end, the scanned part of
the text spells that document. So whatever reads a text has a document to read.
-/

namespace RulesText.Json

/-! ## Values -/

theorem gap_skipSpaces (text : List Char) : ∃ gap, Gap gap ∧ text = gap ++ skipSpaces text :=
  ⟨text.takeWhile isSpace, List.all_eq_true.1 List.all_takeWhile,
    List.takeWhile_append_dropWhile.symm⟩

theorem Gap.append {front back : List Char} (blank : Gap front) (blank' : Gap back) :
    Gap (front ++ back) := by
  intro c member
  rcases List.mem_append.1 member with first | second
  · exact blank c first
  · exact blank' c second

mutual

/-- A value that was scanned and can be passed over is spelled by what was taken of the text behind
the spaces in front. -/
theorem spells_of_scanValue {fuel : Nat} {text rest : List Char} {doc : Doc}
    (scanned : scanValue fuel text = (doc, rest)) (sound : doc.skim = .ok ()) :
    ∃ gap body, Gap gap ∧ text = gap ++ (body ++ rest) ∧ Spells doc body := by
  match fuel with
  | 0 =>
    cases scanned
    cases sound
  | fuel + 1 =>
    obtain ⟨gap, blank, split⟩ := gap_skipSpaces text
    suffices ∃ body, skipSpaces text = body ++ rest ∧ Spells doc body by
      obtain ⟨body, behind, spelled⟩ := this
      exact ⟨gap, body, blank, split.trans (by rw [behind]), spelled⟩
    -- Each branch is a rule of the grammar, or a fault at which no value is passed over.
    rw [scanValue] at scanned
    split at scanned
    · cases scanned
      cases sound
    · rename_i left behind
      obtain ⟨rfl, rfl⟩ := wordDoc_sound scanned sound
      exact ⟨_, behind, .null⟩
    · rename_i left behind
      obtain ⟨rfl, rfl⟩ := wordDoc_sound scanned sound
      exact ⟨_, behind, .yes⟩
    · rename_i left behind
      obtain ⟨rfl, rfl⟩ := wordDoc_sound scanned sound
      exact ⟨_, behind, .no⟩
    · rename_i left behind
      cases inside : scanQuoted left with
      | mk quoted left' =>
        rw [inside] at scanned
        cases scanned
        obtain ⟨body, rfl, spelled⟩ :=
          spellsQuoted_of_scanQuoted inside ((Doc.skim_string_iff quoted).1 sound)
        exact ⟨'"' :: body, behind, .string spelled⟩
    · rename_i left behind
      cases inside : scanItems fuel left with
      | mk found left' =>
        obtain ⟨items, ending⟩ := found
        rw [inside] at scanned
        cases scanned
        obtain ⟨each, rfl⟩ := Doc.skim_array_iff.1 sound
        obtain ⟨body, rfl, spelled⟩ := spells_of_scanItems inside each
        exact ⟨'[' :: body, behind, .array spelled⟩
    · rename_i left behind
      cases inside : scanMembers fuel left with
      | mk found left' =>
        obtain ⟨members, ending⟩ := found
        rw [inside] at scanned
        cases scanned
        obtain ⟨each, rfl⟩ := Doc.skim_object_iff.1 sound
        obtain ⟨body, rfl, spelled⟩ := spells_of_scanMembers inside each
        exact ⟨'\x7b' :: body, behind, .object spelled⟩
    · rename_i c left behind
      split at scanned
      · unfold numeralDoc at scanned
        split at scanned
        · rename_i numeral left' read
          cases scanned
          obtain ⟨body, split', spelled⟩ := spellsNumeral_of_scanNumeral read
          exact ⟨body, behind.trans split', .number spelled⟩
        · cases scanned
          cases sound
      · cases scanned
        cases sound

theorem spells_of_scanItems {fuel : Nat} {text rest : List Char} {items : List Doc}
    (scanned : scanItems fuel text = ((items, .closed), rest))
    (sound : ∀ item ∈ items, item.skim = .ok ()) :
    ∃ body, text = body ++ rest ∧ SpellsItems items body := by
  match fuel with
  | 0 => cases scanned
  | fuel + 1 =>
    obtain ⟨gap, blank, split⟩ := gap_skipSpaces text
    rw [scanItems] at scanned
    split at scanned
    · cases scanned
    · rename_i left behind
      cases scanned
      exact ⟨gap ++ [']'], by rw [split, behind]; simp, .none blank⟩
    · obtain ⟨gap', item, more, front, after, rfl, blank', split', spelled, spelled'⟩ :=
        spells_of_scanItem scanned sound
      refine ⟨(gap ++ gap') ++ front ++ after, ?_, .some (blank.append blank') spelled spelled'⟩
      rw [split, split']
      simp

theorem spells_of_scanItem {fuel : Nat} {text rest : List Char} {items : List Doc}
    (scanned : scanItem fuel text = ((items, .closed), rest))
    (sound : ∀ item ∈ items, item.skim = .ok ()) :
    ∃ gap item more front after, items = item :: more ∧ Gap gap ∧
      text = gap ++ (front ++ (after ++ rest)) ∧ Spells item front ∧
        SpellsNextItems more after := by
  match fuel with
  | 0 => cases scanned
  | fuel + 1 =>
    rw [scanItem] at scanned
    cases value : scanValue fuel text with
    | mk item behind =>
      cases next : scanNextItem fuel behind with
      | mk found left =>
        obtain ⟨more, ending⟩ := found
        simp only [value, next] at scanned
        cases scanned
        obtain ⟨first, others⟩ := List.forall_mem_cons.1 sound
        obtain ⟨gap, front, blank, rfl, spelled⟩ := spells_of_scanValue value first
        obtain ⟨after, rfl, spelled'⟩ := spells_of_scanNextItem next others
        exact ⟨gap, item, more, front, after, rfl, blank, rfl, spelled, spelled'⟩

theorem spells_of_scanNextItem {fuel : Nat} {text rest : List Char} {items : List Doc}
    (scanned : scanNextItem fuel text = ((items, .closed), rest))
    (sound : ∀ item ∈ items, item.skim = .ok ()) :
    ∃ body, text = body ++ rest ∧ SpellsNextItems items body := by
  match fuel with
  | 0 => cases scanned
  | fuel + 1 =>
    obtain ⟨gap, blank, split⟩ := gap_skipSpaces text
    rw [scanNextItem] at scanned
    split at scanned
    · cases scanned
    · rename_i left behind
      cases scanned
      exact ⟨gap ++ [']'], by rw [split, behind]; simp, .none blank⟩
    · rename_i left behind
      obtain ⟨between, blank', split'⟩ := gap_skipSpaces left
      split at scanned
      · cases scanned
      · obtain ⟨gap', item, more, front, after, rfl, blank'', split'', spelled, spelled'⟩ :=
          spells_of_scanItem scanned sound
        refine ⟨gap ++ ',' :: ((between ++ gap') ++ front ++ after), ?_,
          .some blank (blank'.append blank'') spelled spelled'⟩
        rw [split, behind, split', split'']
        simp
    · cases scanned

theorem spells_of_scanMembers {fuel : Nat} {text rest : List Char}
    {members : List (Quoted × Doc)} (scanned : scanMembers fuel text = ((members, .closed), rest))
    (sound : ∀ member ∈ members, member.1.ending = .closed ∧ member.2.skim = .ok ()) :
    ∃ body, text = body ++ rest ∧ SpellsMembers members body := by
  match fuel with
  | 0 => cases scanned
  | fuel + 1 =>
    obtain ⟨gap, blank, split⟩ := gap_skipSpaces text
    rw [scanMembers] at scanned
    split at scanned
    · cases scanned
    · rename_i left behind
      cases scanned
      exact ⟨gap ++ ['\x7d'], by rw [split, behind]; simp, .none blank⟩
    · rename_i left behind
      obtain ⟨body, rfl, spelled⟩ := spells_of_scanMember scanned sound
      exact ⟨gap ++ '"' :: body, by rw [split, behind]; simp, .some blank spelled⟩
    · cases scanned

theorem spells_of_scanMember {fuel : Nat} {text rest : List Char} {members : List (Quoted × Doc)}
    (scanned : scanMember fuel text = ((members, .closed), rest))
    (sound : ∀ member ∈ members, member.1.ending = .closed ∧ member.2.skim = .ok ()) :
    ∃ body, text = body ++ rest ∧ SpellsMember members body := by
  match fuel with
  | 0 => cases scanned
  | fuel + 1 =>
    rw [scanMember] at scanned
    cases named : scanQuoted text with
    | mk key behindKey =>
      obtain ⟨gap, blank, split⟩ := gap_skipSpaces behindKey
      simp only [named] at scanned
      split at scanned
      · cases scanned
      · rename_i left behind
        cases value : scanValue fuel left with
        | mk doc behindValue =>
          cases next : scanNextMember fuel behindValue with
          | mk found left' =>
            obtain ⟨more, ending⟩ := found
            simp only [value, next] at scanned
            cases scanned
            obtain ⟨⟨closed, first⟩, others⟩ := List.forall_mem_cons.1 sound
            obtain ⟨name, rfl, spelled⟩ := spellsQuoted_of_scanQuoted named closed
            obtain ⟨between, front, blank', rfl, spelled'⟩ := spells_of_scanValue value first
            obtain ⟨after, rfl, spelled''⟩ := spells_of_scanNextMember next others
            refine ⟨name ++ gap ++ ':' :: (between ++ front ++ after), ?_,
              .mk spelled blank blank' spelled' spelled''⟩
            rw [split, behind]
            simp
      · cases scanned

theorem spells_of_scanNextMember {fuel : Nat} {text rest : List Char}
    {members : List (Quoted × Doc)}
    (scanned : scanNextMember fuel text = ((members, .closed), rest))
    (sound : ∀ member ∈ members, member.1.ending = .closed ∧ member.2.skim = .ok ()) :
    ∃ body, text = body ++ rest ∧ SpellsNextMembers members body := by
  match fuel with
  | 0 => cases scanned
  | fuel + 1 =>
    obtain ⟨gap, blank, split⟩ := gap_skipSpaces text
    rw [scanNextMember] at scanned
    split at scanned
    · cases scanned
    · rename_i left behind
      cases scanned
      exact ⟨gap ++ ['\x7d'], by rw [split, behind]; simp, .none blank⟩
    · rename_i left behind
      obtain ⟨between, blank', split'⟩ := gap_skipSpaces left
      split at scanned
      · cases scanned
      · cases scanned
      · rename_i left' behind'
        obtain ⟨body, rfl, spelled⟩ := spells_of_scanMember scanned sound
        refine ⟨gap ++ ',' :: (between ++ '"' :: body), ?_, .some blank blank' spelled⟩
        rw [split, behind, split', behind']
        simp
      · cases scanned
    · cases scanned

end

/-! ## Whole texts -/

namespace Doc

/-- A text of the document: it spells the document, with spaces around it. -/
def IsText (doc : Doc) (text : String) : Prop :=
  ∃ gap body after, Gap gap ∧ Spells doc body ∧ Gap after ∧ text.toList = gap ++ (body ++ after)

/-- To read a text of a document is to read the document. -/
theorem IsText.ofText {α : Type} {doc : Doc} {text : String} (spelled : doc.IsText text)
    (read : Format.Reader α) : read.ofText text = read .text (doc.limitDepth maxDepth) := by
  obtain ⟨gap, body, after, blank, inside, blank', whole⟩ := spelled
  have spaces : after.all isSpace = true := List.all_eq_true.2 blank'
  unfold Format.Reader.ofText
  rw [Doc.scan_spells blank inside blank' whole]
  simp only [spaces, if_true, bind_pure]

/-- Whatever is read from a text is read from its document, if the reader leaves no fault of the
text unseen. -/
theorem exists_isText {α : Type} {read : Format.Reader α}
    (whole : ∀ doc value, read .text doc = .ok value → doc.skim = .ok ()) {text : String}
    {value : α}
    (done : read.ofText text = .ok value) : ∃ doc, IsText doc text := by
  unfold Format.Reader.ofText Doc.scan at done
  cases scanned : scanValue (3 * text.length + 3) text.toList with
  | mk doc rest =>
    rw [scanned] at done
    obtain ⟨a, inner, done⟩ := Format.bind_eq_ok done
    have sound := whole (doc.limitDepth maxDepth) a inner
    rw [skim_limitDepth] at sound
    obtain ⟨gap, body, blank, split, spelled⟩ := spells_of_scanValue scanned sound
    split at done
    · rename_i spaces
      exact ⟨doc, gap, body, rest, blank, spelled, List.all_eq_true.1 spaces, split⟩
    · cases done

end Doc

/-- The compact text of a value is a text of its document. -/
theorem Fits.isText_compact {room : Nat} {j : Json} (fits : Fits room j) :
    j.toDoc.IsText j.compact :=
  ⟨[], j.printCompact, [], Gap.nil, fits.compact_spells, Gap.nil, by simp [compact]⟩

end RulesText.Json
