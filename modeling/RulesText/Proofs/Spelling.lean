import RulesText.Proofs.Tokens

/-!
# Texts that spell a document

A well-formed text spells a document whatever spaces stand between its tokens. The scanner finds
the document that a text spells, in front of anything that cannot belong to a numeral.
-/

namespace RulesText.Json

/-! ## Spelling -/

/-- Spaces and nothing else. -/
def Gap (text : List Char) : Prop := ∀ c ∈ text, isSpace c = true

/-- A text that is read as the numeral in front of whatever cannot belong to it. -/
def SpellsNumeral (numeral : Numeral) (text : List Char) : Prop :=
  ∀ rest, EndsNumeral rest → scanNumeral (text ++ rest) = .ok (numeral, rest)

/-- A text that is read as the quoted string behind its opening quote, whatever follows. -/
def SpellsQuoted (quoted : Quoted) (text : List Char) : Prop :=
  ∀ rest, scanQuoted (text ++ rest) = (quoted, rest)

mutual

/-- The texts of a value without faults, from its first character to its last. -/
inductive Spells : Doc → List Char → Prop
  | null : Spells .null ['n', 'u', 'l', 'l']
  | yes : Spells (.bool true) ['t', 'r', 'u', 'e']
  | no : Spells (.bool false) ['f', 'a', 'l', 's', 'e']
  | number {numeral : Numeral} {text : List Char} (digits : SpellsNumeral numeral text) :
    Spells (.number numeral) text
  | string {quoted : Quoted} {text : List Char} (inside : SpellsQuoted quoted text) :
    Spells (.string quoted) ('"' :: text)
  | array {items : List Doc} {text : List Char} (inside : SpellsItems items text) :
    Spells (.array items .closed) ('[' :: text)
  | object {members : List (Quoted × Doc)} {text : List Char}
    (inside : SpellsMembers members text) : Spells (.object members .closed) ('\x7b' :: text)

/-- The texts behind an opening bracket, with the closing one. -/
inductive SpellsItems : List Doc → List Char → Prop
  | none {gap : List Char} (blank : Gap gap) : SpellsItems [] (gap ++ [']'])
  | some {gap text after : List Char} {item : Doc} {items : List Doc} (blank : Gap gap)
    (first : Spells item text) (more : SpellsNextItems items after) :
    SpellsItems (item :: items) (gap ++ text ++ after)

/-- The texts behind an item, with the closing bracket. -/
inductive SpellsNextItems : List Doc → List Char → Prop
  | none {gap : List Char} (blank : Gap gap) : SpellsNextItems [] (gap ++ [']'])
  | some {gap between text after : List Char} {item : Doc} {items : List Doc} (blank : Gap gap)
    (blank' : Gap between) (first : Spells item text) (more : SpellsNextItems items after) :
    SpellsNextItems (item :: items) (gap ++ ',' :: (between ++ text ++ after))

/-- The texts behind an opening brace, with the closing one. -/
inductive SpellsMembers : List (Quoted × Doc) → List Char → Prop
  | none {gap : List Char} (blank : Gap gap) : SpellsMembers [] (gap ++ ['\x7d'])
  | some {gap after : List Char} {members : List (Quoted × Doc)} (blank : Gap gap)
    (more : SpellsMember members after) : SpellsMembers members (gap ++ '"' :: after)

/-- The texts of a member and those after it, behind the quote that opens its key. -/
inductive SpellsMember : List (Quoted × Doc) → List Char → Prop
  | mk {name gap between text after : List Char} {key : Quoted} {value : Doc}
    {members : List (Quoted × Doc)} (named : SpellsQuoted key name) (blank : Gap gap)
    (blank' : Gap between) (first : Spells value text) (more : SpellsNextMembers members after) :
    SpellsMember ((key, value) :: members) (name ++ gap ++ ':' :: (between ++ text ++ after))

/-- The texts behind a member, with the closing brace. -/
inductive SpellsNextMembers : List (Quoted × Doc) → List Char → Prop
  | none {gap : List Char} (blank : Gap gap) : SpellsNextMembers [] (gap ++ ['\x7d'])
  | some {gap between after : List Char} {members : List (Quoted × Doc)} (blank : Gap gap)
    (blank' : Gap between) (more : SpellsMember members after) :
    SpellsNextMembers members (gap ++ ',' :: (between ++ '"' :: after))

end

/-! ## Spaces -/

theorem Gap.nil : Gap [] := by
  intro c member
  cases member

theorem skipSpaces_gap {gap : List Char} (blank : Gap gap) (text : List Char) :
    skipSpaces (gap ++ text) = skipSpaces text :=
  List.dropWhile_append_of_pos blank

theorem skipSpaces_cons {c : Char} (solid : isSpace c = false) (text : List Char) :
    skipSpaces (c :: text) = c :: text := by
  simp [skipSpaces, solid]

theorem skipSpaces_gap_cons {gap : List Char} (blank : Gap gap) {c : Char}
    (solid : isSpace c = false) (text : List Char) :
    skipSpaces (gap ++ c :: text) = c :: text := by
  rw [skipSpaces_gap blank, skipSpaces_cons solid]

theorem endsNumeral_space {c : Char} (space : isSpace c = true) (text : List Char) :
    EndsNumeral (c :: text) := by
  intro d first
  obtain rfl : c = d := by simpa using first
  simp only [isSpace, Bool.or_eq_true, beq_iff_eq] at space
  rcases space with ((rfl | rfl) | rfl) | rfl <;> decide

/-- A numeral ends in front of spaces, and of what ends it behind them. -/
theorem endsNumeral_gap {gap text : List Char} (blank : Gap gap) (ends : EndsNumeral text) :
    EndsNumeral (gap ++ text) := by
  cases gap with
  | nil => exact ends
  | cons c gap => exact endsNumeral_space (blank c List.mem_cons_self) _

theorem endsNumeral_mark {c : Char} (mark : c = ',' ∨ c = ']' ∨ c = '\x7d') (text : List Char) :
    EndsNumeral (c :: text) := by
  intro d first
  obtain rfl : c = d := by simpa using first
  rcases mark with rfl | rfl | rfl <;> decide

theorem SpellsNextItems.ends {items : List Doc} {text : List Char}
    (more : SpellsNextItems items text) (rest : List Char) : EndsNumeral (text ++ rest) := by
  cases more with
  | none blank =>
    rw [List.append_assoc]
    exact endsNumeral_gap blank (endsNumeral_mark (by simp) _)
  | some blank _ _ _ =>
    rw [List.append_assoc]
    exact endsNumeral_gap blank (endsNumeral_mark (by simp) _)

theorem SpellsNextMembers.ends {members : List (Quoted × Doc)} {text : List Char}
    (more : SpellsNextMembers members text) (rest : List Char) : EndsNumeral (text ++ rest) := by
  cases more with
  | none blank =>
    rw [List.append_assoc]
    exact endsNumeral_gap blank (endsNumeral_mark (by simp) _)
  | some blank _ _ =>
    rw [List.append_assoc]
    exact endsNumeral_gap blank (endsNumeral_mark (by simp) _)

/-! ## First characters -/

/-- A numeral begins with its sign or with a digit. -/
theorem scanNumeral_head {text : List Char} {scanned : Numeral × List Char}
    (read : scanNumeral text = .ok scanned) :
    ∃ c more, text = c :: more ∧ (c = '-' ∨ c.isDigit = true) := by
  rcases text with _ | ⟨c, more⟩
  · cases read
  · refine ⟨c, more, rfl, ?_⟩
    by_cases sign : c = '-'
    · exact .inl sign
    · by_cases isDigit : c.isDigit = true
      · exact .inr isDigit
      · have nonzero : c ≠ '0' := by
          rintro rfl
          exact isDigit rfl
        have none : scanDigits (c :: more) = ([], c :: more) := by simp [scanDigits, isDigit]
        have unread : scanWhole (c :: more) = .error false := by
          simp [scanWhole, nonzero, scanSomeDigits, none]
        simp [scanNumeral, sign, unread, bind, Except.bind] at read

theorem numeral_head_solid {c : Char} (head : c = '-' ∨ c.isDigit = true) :
    isSpace c = false ∧ c ≠ ']' := by
  rcases head with rfl | isDigit
  · decide
  · refine ⟨?_, ?_⟩
    · cases space : isSpace c with
      | false => rfl
      | true =>
        simp only [isSpace, Bool.or_eq_true, beq_iff_eq] at space
        rcases space with ((rfl | rfl) | rfl) | rfl <;> revert isDigit <;> decide
    · rintro rfl
      revert isDigit
      decide

/-- A value begins with a character that is no space and no closing bracket. -/
theorem Spells.head {doc : Doc} {text : List Char} (spelled : Spells doc text) :
    ∃ c more, text = c :: more ∧ isSpace c = false ∧ c ≠ ']' := by
  cases spelled with
  | number digits =>
    obtain ⟨c, more, rfl, head⟩ := scanNumeral_head (by simpa using digits [] endsNumeral_nil)
    exact ⟨c, more, rfl, numeral_head_solid head⟩
  | _ => exact ⟨_, _, rfl, by decide, by decide⟩

/-! ## Scanning -/

theorem scanValue_gap {gap : List Char} (blank : Gap gap) (fuel : Nat) (text : List Char) :
    scanValue fuel (gap ++ text) = scanValue fuel text := by
  cases fuel with
  | zero => rfl
  | succ fuel => rw [scanValue, scanValue, skipSpaces_gap blank]

theorem scanValue_numeral {c : Char} {rest : List Char} (head : c = '-' ∨ c.isDigit = true)
    (fuel : Nat) : scanValue (fuel + 1) (c :: rest) = numeralDoc (c :: rest) := by
  have solid := (numeral_head_solid head).1
  rw [scanValue, skipSpaces_cons solid]
  split
  case h_8 =>
    rename_i same
    obtain ⟨rfl, rfl⟩ := List.cons.inj same
    exact if_pos head
  all_goals
    rename_i same
    simp_all

theorem Spells.length_pos {doc : Doc} {text : List Char} (spelled : Spells doc text) :
    0 < text.length := by
  obtain ⟨c, more, rfl, _⟩ := spelled.head
  exact Nat.succ_pos _

/-- A text that spells a value comes to its first character behind any spaces. -/
theorem Spells.skipSpaces {doc : Doc} {text : List Char} (spelled : Spells doc text)
    {gap : List Char} (blank : Gap gap) (rest : List Char) :
    ∃ c more, skipSpaces (gap ++ (text ++ rest)) = c :: more ∧ text ++ rest = c :: more ∧
      c ≠ ']' := by
  obtain ⟨c, more, rfl, solid, other⟩ := spelled.head
  exact ⟨c, more ++ rest, skipSpaces_gap_cons blank solid _, rfl, other⟩

theorem scanItems_item {fuel : Nat} {text tail : List Char} {c : Char}
    (skipped : skipSpaces text = c :: tail) (other : c ≠ ']') :
    scanItems (fuel + 1) text = scanItem fuel (c :: tail) := by
  simp [scanItems, skipped, other]

theorem scanNextItem_item {fuel : Nat} {text rest tail : List Char} {c : Char}
    (comma : skipSpaces text = ',' :: rest) (skipped : skipSpaces rest = c :: tail)
    (other : c ≠ ']') : scanNextItem (fuel + 1) text = scanItem fuel (c :: tail) := by
  simp [scanNextItem, comma, skipped, other]

mutual

/-- A value that a text spells is the value that is scanned, and what follows is left. Each
character of the text pays for three steps. -/
theorem scanValue_spells {doc : Doc} {text : List Char} (spelled : Spells doc text) (fuel : Nat)
    (rest : List Char) (enough : 3 * text.length ≤ fuel) (ends : EndsNumeral rest) :
    scanValue fuel (text ++ rest) = (doc, rest) := by
  have positive := spelled.length_pos
  obtain ⟨fuel, rfl⟩ : ∃ n, fuel = n + 1 := ⟨fuel - 1, by omega⟩
  match spelled with
  | .null => rfl
  | .yes => rfl
  | .no => rfl
  | .number digits =>
    -- Only a numeral can be lengthened by what follows, so only here its end matters.
    have read := digits rest ends
    obtain ⟨c, more, split, head⟩ := scanNumeral_head read
    rw [split, scanValue_numeral head, ← split, numeralDoc, read]
  | .string inside =>
    rw [List.cons_append, scanValue, skipSpaces_cons (by decide)]
    simp only [inside rest]
  | .array inside =>
    simp only [List.length_cons] at enough
    rw [List.cons_append, scanValue, skipSpaces_cons (by decide)]
    simp only [scanItems_spells inside fuel rest (by omega)]
  | .object inside =>
    simp only [List.length_cons] at enough
    rw [List.cons_append, scanValue, skipSpaces_cons (by decide)]
    simp only [scanMembers_spells inside fuel rest (by omega)]

theorem scanItems_spells {items : List Doc} {text : List Char} (spelled : SpellsItems items text)
    (fuel : Nat) (rest : List Char) (enough : 3 * text.length + 2 ≤ fuel) :
    scanItems fuel (text ++ rest) = ((items, .closed), rest) := by
  obtain ⟨fuel, rfl⟩ : ∃ n, fuel = n + 2 := ⟨fuel - 2, by omega⟩
  match spelled with
  | .none blank =>
    rw [List.append_assoc, scanItems, List.singleton_append, skipSpaces_gap_cons blank (by decide)]
    rfl
  | @SpellsItems.some gap text after item items blank first more =>
    simp only [List.length_append] at enough
    obtain ⟨c, tail, skipped, split, other⟩ := first.skipSpaces blank (after ++ rest)
    have value := scanValue_spells first fuel (after ++ rest) (by omega) (more.ends rest)
    have next := scanNextItem_spells more fuel rest (by omega)
    rw [List.append_assoc, List.append_assoc, scanItems_item skipped other, ← split, scanItem,
      value]
    simp only [next]

theorem scanNextItem_spells {items : List Doc} {text : List Char}
    (spelled : SpellsNextItems items text) (fuel : Nat) (rest : List Char)
    (enough : 3 * text.length ≤ fuel) :
    scanNextItem fuel (text ++ rest) = ((items, .closed), rest) := by
  match spelled with
  | .none blank =>
    simp only [List.length_append, List.length_singleton] at enough
    obtain ⟨fuel, rfl⟩ : ∃ n, fuel = n + 1 := ⟨fuel - 1, by omega⟩
    rw [List.append_assoc, scanNextItem, List.singleton_append,
      skipSpaces_gap_cons blank (by decide)]
    rfl
  | @SpellsNextItems.some gap between text after item items blank blank' first more =>
    simp only [List.length_append, List.length_cons] at enough
    obtain ⟨fuel, rfl⟩ : ∃ n, fuel = n + 2 := ⟨fuel - 2, by omega⟩
    obtain ⟨c, tail, skipped, split, other⟩ := first.skipSpaces blank' (after ++ rest)
    have comma := skipSpaces_gap_cons blank (c := ',') (by decide)
      (between ++ (text ++ (after ++ rest)))
    have value := scanValue_spells first fuel (after ++ rest) (by omega) (more.ends rest)
    have next := scanNextItem_spells more fuel rest (by omega)
    simp only [List.append_assoc, List.cons_append]
    rw [scanNextItem_item comma skipped other, ← split, scanItem, value]
    simp only [next]

theorem scanMembers_spells {members : List (Quoted × Doc)} {text : List Char}
    (spelled : SpellsMembers members text) (fuel : Nat) (rest : List Char)
    (enough : 3 * text.length + 2 ≤ fuel) :
    scanMembers fuel (text ++ rest) = ((members, .closed), rest) := by
  obtain ⟨fuel, rfl⟩ : ∃ n, fuel = n + 1 := ⟨fuel - 1, by omega⟩
  match spelled with
  | .none blank =>
    rw [List.append_assoc, scanMembers, List.singleton_append,
      skipSpaces_gap_cons blank (by decide)]
    rfl
  | .some blank more =>
    simp only [List.length_append, List.length_cons] at enough
    have member := scanMember_spells more fuel rest (by omega)
    rw [List.append_assoc, List.cons_append, scanMembers, skipSpaces_gap_cons blank (by decide)]
    exact member

theorem scanMember_spells {members : List (Quoted × Doc)} {text : List Char}
    (spelled : SpellsMember members text) (fuel : Nat) (rest : List Char)
    (enough : 3 * text.length + 1 ≤ fuel) :
    scanMember fuel (text ++ rest) = ((members, .closed), rest) := by
  obtain ⟨fuel, rfl⟩ : ∃ n, fuel = n + 1 := ⟨fuel - 1, by omega⟩
  match spelled with
  | @SpellsMember.mk name gap between text after key value members named blank blank' first more =>
    simp only [List.length_append, List.length_cons] at enough
    have key := named (gap ++ ':' :: (between ++ (text ++ (after ++ rest))))
    have colon := skipSpaces_gap_cons blank (c := ':') (by decide)
      (between ++ (text ++ (after ++ rest)))
    have value := scanValue_spells first fuel (after ++ rest) (by omega) (more.ends rest)
    have next := scanNextMember_spells more fuel rest (by omega)
    simp only [List.append_assoc, List.cons_append]
    rw [scanMember, key]
    simp only [colon, scanValue_gap blank', value, next]

theorem scanNextMember_spells {members : List (Quoted × Doc)} {text : List Char}
    (spelled : SpellsNextMembers members text) (fuel : Nat) (rest : List Char)
    (enough : 3 * text.length ≤ fuel) :
    scanNextMember fuel (text ++ rest) = ((members, .closed), rest) := by
  match spelled with
  | .none blank =>
    simp only [List.length_append, List.length_singleton] at enough
    obtain ⟨fuel, rfl⟩ : ∃ n, fuel = n + 1 := ⟨fuel - 1, by omega⟩
    rw [List.append_assoc, scanNextMember, List.singleton_append,
      skipSpaces_gap_cons blank (by decide)]
    rfl
  | @SpellsNextMembers.some gap between after members blank blank' more =>
    simp only [List.length_append, List.length_cons] at enough
    obtain ⟨fuel, rfl⟩ : ∃ n, fuel = n + 1 := ⟨fuel - 1, by omega⟩
    have member := scanMember_spells more fuel rest (by omega)
    have comma := skipSpaces_gap_cons blank (c := ',') (by decide)
      (between ++ '"' :: (after ++ rest))
    have quote := skipSpaces_gap_cons blank' (c := '"') (by decide) (after ++ rest)
    simp only [List.append_assoc, List.cons_append]
    rw [scanNextMember, comma]
    simp only [quote]
    exact member

end

/-- The document of a text that spells it between spaces. -/
theorem Doc.scan_spells {doc : Doc} {text : String} {gap body after : List Char} (blank : Gap gap)
    (spelled : Spells doc body) (blank' : Gap after)
    (whole : text.toList = gap ++ (body ++ after)) :
    Doc.scan text = (doc.limitDepth maxDepth, after) := by
  have ends : EndsNumeral after := by simpa using endsNumeral_gap blank' endsNumeral_nil
  have enough : 3 * body.length ≤ 3 * text.length + 3 := by
    rw [← String.length_toList, whole, List.length_append, List.length_append]
    omega
  unfold Doc.scan
  rw [whole, scanValue_gap blank, scanValue_spells spelled _ after enough ends]

end RulesText.Json
