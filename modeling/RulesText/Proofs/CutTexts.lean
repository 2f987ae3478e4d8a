import RulesText.Proofs.CutTokens
import RulesText.Proofs.Texts

/-!
# Documents of a text that goes on

The document of a text and the document of the text with more behind it agree up to the place at
which the first text ends: on the way from the root to that place both have the same items and
members in front, and nothing but the last item or member may differ. Every other document, with a
value that ends or a fault in the text, stays as it is when the text goes on.
-/

namespace RulesText.Json

/-! ## Documents that are cut off -/

/-- Whether a text ends behind a comma and spaces, and more text begins with spaces and a closing
bracket. -/
def BracketBehindComma (text more : List Char) : Prop :=
  (∃ gap, Gap gap ∧ ',' :: gap <:+ text) ∧ ∃ gap rest, Gap gap ∧ more = gap ++ ']' :: rest

mutual

/-- A document that the end of a text cuts off, and one that it may become when the text goes on.
`signed` is whether a sign may follow, and `bracketed` whether a closing bracket does. -/
inductive Doc.Cut (signed bracketed : Prop) : Doc → Doc → Prop
  | absent (doc' : Doc) : Doc.Cut signed bracketed (.broken .absent) doc'
  | word (null cut : Bool) :
    Doc.Cut signed bracketed (.broken (.word null true)) (.broken (.word null cut))
  | null : Doc.Cut signed bracketed (.broken (.word true true)) .null
  | bool (value : Bool) : Doc.Cut signed bracketed (.broken (.word false true)) (.bool value)
  | numeral (cut : Bool) :
    Doc.Cut signed bracketed (.broken (.numeral true)) (.broken (.numeral cut))
  | number (sign : signed) (numeral : Numeral) :
    Doc.Cut signed bracketed (.broken (.numeral true)) (.number numeral)
  | string {quoted quoted' : Quoted} (inside : quoted.Cut quoted') :
    Doc.Cut signed bracketed (.string quoted) (.string quoted')
  | array {items items' : List Doc} {ending ending' : ListEnd}
    (inside : ItemsCut signed bracketed items ending items' ending') :
    Doc.Cut signed bracketed (.array items ending) (.array items' ending')
  | object {members members' : List (Quoted × Doc)} {ending ending' : ObjectEnd}
    (inside : MembersCut signed bracketed members ending members' ending') :
    Doc.Cut signed bracketed (.object members ending) (.object members' ending')
  | deepArray {items items' : List Doc} {ending ending' : ListEnd}
    (inside : ItemsCut signed bracketed items ending items' ending') :
    Doc.Cut signed bracketed (.deep (.array items ending)) (.deep (.array items' ending'))
  | deepObject {members members' : List (Quoted × Doc)} {ending ending' : ObjectEnd}
    (inside : MembersCut signed bracketed members ending members' ending') :
    Doc.Cut signed bracketed (.deep (.object members ending)) (.deep (.object members' ending'))

/-- Items that the end of a text cuts off, and those that they may become. Behind a comma an item is
missing, but when a bracket follows it is the comma that is one too many. -/
inductive ItemsCut (signed bracketed : Prop) :
    List Doc → ListEnd → List Doc → ListEnd → Prop
  | behind (items' : List Doc) (ending' : ListEnd) :
    ItemsCut signed bracketed [] .unfinished items' ending'
  | comma (bracket : bracketed) :
    ItemsCut signed bracketed [.broken .absent] .unfinished [] .trailingComma
  | item (item : Doc) {items items' : List Doc} {ending ending' : ListEnd}
    (others : ItemsCut signed bracketed items ending items' ending') :
    ItemsCut signed bracketed (item :: items) ending (item :: items') ending'
  | last {item item' : Doc} (inside : Doc.Cut signed bracketed item item') (items' : List Doc)
    (ending' : ListEnd) : ItemsCut signed bracketed [item] .unfinished (item' :: items') ending'

/-- Members that the end of a text cuts off, and those that they may become. Behind a comma the
object cannot end. -/
inductive MembersCut (signed bracketed : Prop) :
    List (Quoted × Doc) → ObjectEnd → List (Quoted × Doc) → ObjectEnd → Prop
  | behind (members' : List (Quoted × Doc)) (ending' : ObjectEnd) :
    MembersCut signed bracketed [] .unfinished members' ending'
  | comma {members' : List (Quoted × Doc)} {ending' : ObjectEnd}
    (goes : members' ≠ [] ∨ ending' ≠ .closed ∧ ending' ≠ .unfinished) :
    MembersCut signed bracketed [] .cutAfterComma members' ending'
  | key {key key' : Quoted} (same : key' = key ∨ key.Cut key') (fault' : Fault) :
    MembersCut signed bracketed [] (.loneKey key (.unfinished .object)) [] (.loneKey key' fault')
  | value {key key' : Quoted} (same : key' = key ∨ key.Cut key') (value' : Doc)
    (members' : List (Quoted × Doc)) (ending' : ObjectEnd) :
    MembersCut signed bracketed [] (.loneKey key (.unfinished .object))
      ((key', value') :: members') ending'
  | member (member : Quoted × Doc) {members members' : List (Quoted × Doc)}
    {ending ending' : ObjectEnd}
    (others : MembersCut signed bracketed members ending members' ending') :
    MembersCut signed bracketed (member :: members) ending (member :: members') ending'
  | last (key : Quoted) {value value' : Doc} (inside : Doc.Cut signed bracketed value value')
    (members' : List (Quoted × Doc)) (ending' : ObjectEnd) :
    MembersCut signed bracketed [(key, value)] .unfinished ((key, value') :: members') ending'

end

/-! ## What is left of a text -/

theorem skipSpaces_suffix (text : List Char) : skipSpaces text <:+ text :=
  List.dropWhile_suffix isSpace

/-- Of a text that goes on behind its spaces, the text with more behind it goes on as well. -/
theorem skipSpaces_append {text left : List Char} {c : Char} (skipped : skipSpaces text = c :: left)
    (more : List Char) : skipSpaces (text ++ more) = c :: (left ++ more) := by
  obtain ⟨gap, blank, split⟩ := gap_skipSpaces text
  have solid : isSpace c = false := by
    have other := List.head?_dropWhile_not isSpace text
    rw [show text.dropWhile isSpace = c :: left from skipped] at other
    simpa using other
  rw [split, skipped, List.append_assoc, List.cons_append, skipSpaces_gap_cons blank solid]

theorem skipSpaces_of_blank {text : List Char} (blank : skipSpaces text = []) (more : List Char) :
    skipSpaces (text ++ more) = skipSpaces more := by
  obtain ⟨gap, spaces, split⟩ := gap_skipSpaces text
  rw [split, blank, List.append_nil, skipSpaces_gap spaces]

section

variable {text left rest : List Char} {c : Char}

/-- What is left behind the first character of a text is behind that of all the text. -/
theorem suffix_tail_of_skipSpaces (skipped : skipSpaces text = c :: left) (behind : rest <:+ left) :
    rest <:+ text.tail := by
  obtain ⟨gap, _, split⟩ := gap_skipSpaces text
  rw [split, skipped]
  refine behind.trans ?_
  cases gap with
  | nil => exact List.suffix_refl left
  | cons d gap => exact (List.suffix_cons c left).trans (List.suffix_append gap _)

theorem suffix_of_tail (behind : rest <:+ text.tail) : rest <:+ text :=
  behind.trans (List.tail_suffix text)

theorem length_of_suffix_tail (behind : rest <:+ text.tail) : rest.length ≤ text.length - 1 := by
  have short := behind.length_le
  rwa [List.length_tail] at short

end

theorem wordDoc_suffix (value : Doc) (word : String) (text : List Char) :
    (wordDoc value word text).2 <:+ text := by
  unfold wordDoc
  split
  · rename_i rest read
    rw [scanWord_eq_ok read]
    exact List.suffix_append _ rest
  · exact List.nil_suffix

theorem numeralDoc_suffix (text : List Char) : (numeralDoc text).2 <:+ text.tail := by
  unfold numeralDoc
  split
  · rename_i numeral rest read
    obtain ⟨body, rfl, spelled⟩ := spellsNumeral_of_scanNumeral read
    cases body with
    | nil =>
      have impossible := spelled [] endsNumeral_nil
      cases impossible
    | cons c body => exact List.suffix_append body rest
  · exact List.nil_suffix

mutual

/-- A value takes the first character of a text at least. -/
theorem scanValue_suffix (fuel : Nat) (text : List Char) :
    (scanValue fuel text).2 <:+ text.tail := by
  match fuel with
  | 0 => exact List.nil_suffix
  | fuel + 1 =>
    cases skipped : skipSpaces text with
    | nil =>
      rw [scanValue, skipped]
      exact List.nil_suffix
    | cons c left =>
      have behind {rest : List Char} (inside : rest <:+ left) : rest <:+ text.tail :=
        suffix_tail_of_skipSpaces skipped inside
      rw [scanValue, skipped]
      split
      · exact List.nil_suffix
      · rename_i same
        cases same
        exact behind (wordDoc_suffix _ _ left)
      · rename_i same
        cases same
        exact behind (wordDoc_suffix _ _ left)
      · rename_i same
        cases same
        exact behind (wordDoc_suffix _ _ left)
      · rename_i same
        cases same
        exact behind (scanQuoted_suffix rfl)
      · rename_i same
        cases same
        exact behind (suffix_of_tail (scanItems_suffix fuel left))
      · rename_i same
        cases same
        exact behind (suffix_of_tail (scanMembers_suffix fuel left))
      · rename_i same
        cases same
        split
        · exact behind (numeralDoc_suffix (c :: left))
        · exact List.nil_suffix

theorem scanItems_suffix (fuel : Nat) (text : List Char) :
    (scanItems fuel text).2 <:+ text.tail := by
  match fuel with
  | 0 => exact List.nil_suffix
  | fuel + 1 =>
    cases skipped : skipSpaces text with
    | nil =>
      rw [scanItems, skipped]
      exact List.nil_suffix
    | cons c left =>
      have behind {rest : List Char} (inside : rest <:+ left) : rest <:+ text.tail :=
        suffix_tail_of_skipSpaces skipped inside
      rw [scanItems, skipped]
      split
      · exact List.nil_suffix
      · rename_i same
        cases same
        exact behind (List.suffix_refl left)
      · exact behind (scanItem_suffix fuel (c :: left))

theorem scanItem_suffix (fuel : Nat) (text : List Char) :
    (scanItem fuel text).2 <:+ text.tail := by
  match fuel with
  | 0 => exact List.nil_suffix
  | fuel + 1 =>
    rw [scanItem]
    exact (suffix_of_tail (scanNextItem_suffix fuel _)).trans (scanValue_suffix fuel text)

theorem scanNextItem_suffix (fuel : Nat) (text : List Char) :
    (scanNextItem fuel text).2 <:+ text.tail := by
  match fuel with
  | 0 => exact List.nil_suffix
  | fuel + 1 =>
    cases skipped : skipSpaces text with
    | nil =>
      rw [scanNextItem, skipped]
      exact List.nil_suffix
    | cons c left =>
      have behind {rest : List Char} (inside : rest <:+ left) : rest <:+ text.tail :=
        suffix_tail_of_skipSpaces skipped inside
      rw [scanNextItem, skipped]
      split
      · exact List.nil_suffix
      · rename_i same
        cases same
        exact behind (List.suffix_refl left)
      · rename_i same
        cases same
        split
        · exact List.nil_suffix
        · exact behind ((suffix_of_tail (scanItem_suffix fuel _)).trans (skipSpaces_suffix left))
      · exact List.nil_suffix

theorem scanMembers_suffix (fuel : Nat) (text : List Char) :
    (scanMembers fuel text).2 <:+ text.tail := by
  match fuel with
  | 0 => exact List.nil_suffix
  | fuel + 1 =>
    cases skipped : skipSpaces text with
    | nil =>
      rw [scanMembers, skipped]
      exact List.nil_suffix
    | cons c left =>
      have behind {rest : List Char} (inside : rest <:+ left) : rest <:+ text.tail :=
        suffix_tail_of_skipSpaces skipped inside
      rw [scanMembers, skipped]
      split
      · exact List.nil_suffix
      · rename_i same
        cases same
        exact behind (List.suffix_refl left)
      · rename_i same
        cases same
        exact behind (scanMember_suffix fuel left)
      · exact List.nil_suffix

theorem scanMember_suffix (fuel : Nat) (text : List Char) :
    (scanMember fuel text).2 <:+ text := by
  match fuel with
  | 0 => exact List.nil_suffix
  | fuel + 1 =>
    rw [scanMember]
    split
    rename_i key behindKey named
    have own := scanQuoted_suffix named
    cases skipped : skipSpaces behindKey with
    | nil => exact List.nil_suffix
    | cons c left =>
      have behind {rest : List Char} (inside : rest <:+ left) : rest <:+ text :=
        (suffix_of_tail (suffix_tail_of_skipSpaces skipped inside)).trans own
      split
      · exact List.nil_suffix
      · rename_i same
        cases same
        have value := suffix_of_tail (scanValue_suffix fuel left)
        exact behind ((suffix_of_tail (scanNextMember_suffix fuel _)).trans value)
      · exact List.nil_suffix

theorem scanNextMember_suffix (fuel : Nat) (text : List Char) :
    (scanNextMember fuel text).2 <:+ text.tail := by
  match fuel with
  | 0 => exact List.nil_suffix
  | fuel + 1 =>
    cases skipped : skipSpaces text with
    | nil =>
      rw [scanNextMember, skipped]
      exact List.nil_suffix
    | cons c left =>
      have behind {rest : List Char} (inside : rest <:+ left) : rest <:+ text.tail :=
        suffix_tail_of_skipSpaces skipped inside
      rw [scanNextMember, skipped]
      split
      · exact List.nil_suffix
      · rename_i same
        cases same
        exact behind (List.suffix_refl left)
      · rename_i same
        cases same
        cases skipped' : skipSpaces left with
        | nil => exact List.nil_suffix
        | cons d left' =>
          split
          · exact List.nil_suffix
          · exact List.nil_suffix
          · rename_i same'
            cases same'
            have inside := suffix_tail_of_skipSpaces skipped' (scanMember_suffix fuel left')
            exact behind (suffix_of_tail inside)
          · exact List.nil_suffix
      · exact List.nil_suffix

end

/-! ## Scanning on -/

/-- A document that the end of a text cuts off, and what it becomes with more text behind it. -/
abbrev Doc.CutAt (whole more : List Char) : Doc → Doc → Prop :=
  Doc.Cut (SignBehindExponent whole more) (BracketBehindComma whole more)

/-- Scanned items that the end of a text cuts off, and what they become. -/
def ItemsCutAt (whole more : List Char) (scanned scanned' : List Doc × ListEnd) : Prop :=
  ItemsCut (SignBehindExponent whole more) (BracketBehindComma whole more)
    scanned.1 scanned.2 scanned'.1 scanned'.2

/-- Scanned members that the end of a text cuts off, and what they become. -/
def MembersCutAt (whole more : List Char) (scanned scanned' : List (Quoted × Doc) × ObjectEnd) :
    Prop :=
  MembersCut (SignBehindExponent whole more) (BracketBehindComma whole more)
    scanned.1 scanned.2 scanned'.1 scanned'.2

section

variable {whole more : List Char}

theorem wordDoc_append {value : Doc} (becomes : ∀ signed bracketed,
    Doc.Cut signed bracketed (.broken (.word (value matches .null) true)) value) (word : String)
    (text : List Char) :
    GoesOn (Doc.CutAt whole more) more (wordDoc value word text)
      (wordDoc value word (text ++ more)) := by
  have goes := scanWord_append word.toList text more
  unfold wordDoc
  cases read : scanWord word.toList text with
  | ok rest =>
    rw [read] at goes
    simp only [goes]
    exact .whole value rest
  | error cut =>
    rw [read] at goes
    cases cut with
    | false =>
      simp only [goes]
      exact .stuck _
    | true =>
      cases scanWord word.toList (text ++ more) with
      | ok rest' => exact .cut rest' (becomes _ _)
      | error cut' => exact .cut [] (.word _ cut')

theorem numeralDoc_append (ends : EndsNumeral more) {c : Char} {text : List Char}
    (part : c :: text <:+ whole) :
    GoesOn (Doc.CutAt whole more) more (numeralDoc (c :: text))
      (numeralDoc (c :: text ++ more)) := by
  have goes := scanNumeral_append ends part
  unfold numeralDoc
  match read : scanNumeral (c :: text) with
  | .ok (numeral, rest) =>
    rw [read] at goes
    simp only [show scanNumeral (c :: text ++ more) = .ok (numeral, rest ++ more) from goes]
    exact .whole _ rest
  | .error false =>
    rw [read] at goes
    simp only [show scanNumeral (c :: text ++ more) = .error false from goes]
    exact .stuck _
  | .error true =>
    rw [read] at goes
    match longer : scanNumeral (c :: text ++ more) with
    | .error cut' => exact .cut [] (.numeral cut')
    | .ok (numeral, rest') =>
      rcases goes with sign | ⟨cut', failed⟩
      · exact .cut rest' (.number sign numeral)
      · rw [longer] at failed
        cases failed

/-- Behind a comma an object has a member or a fault. -/
theorem scanNextMember_comma (fuel : Nat) {text left : List Char}
    (comma : skipSpaces text = ',' :: left) :
    (scanNextMember (fuel + 2) text).1.1 ≠ [] ∨
      (scanNextMember (fuel + 2) text).1.2 ≠ .closed ∧
        (scanNextMember (fuel + 2) text).1.2 ≠ .unfinished := by
  simp only [scanNextMember, comma]
  split
  · exact .inr ⟨nofun, nofun⟩
  · exact .inr ⟨nofun, nofun⟩
  · rw [scanMember]
    dsimp only
    split
    · exact .inr ⟨nofun, nofun⟩
    · exact .inl (List.cons_ne_nil _ _)
    · exact .inr ⟨nofun, nofun⟩
  · exact .inr ⟨nofun, nofun⟩

theorem scanValue_other {text left : List Char} {c : Char} (skipped : skipSpaces text = c :: left)
    (other : c ∉ ['n', 't', 'f', '"', '[', '\x7b']) (fuel : Nat) :
    scanValue (fuel + 1) text =
      if c = '-' ∨ c.isDigit then numeralDoc (c :: left) else (.broken .stray, []) := by
  rw [scanValue, skipped]
  split
  case h_8 =>
    rename_i same
    obtain ⟨rfl, rfl⟩ := List.cons.inj same
    rfl
  all_goals
    rename_i same
    simp_all

theorem gap_of_skipSpaces {text : List Char} (blank : skipSpaces text = []) : Gap text := by
  obtain ⟨gap, spaces, split⟩ := gap_skipSpaces text
  rw [blank, List.append_nil] at split
  exact split ▸ spaces

theorem scanItem_nil (fuel : Nat) :
    scanItem (fuel + 1) [] = (([.broken .absent], .unfinished), []) := by
  cases fuel <;> rfl

section

variable {text rest left : List Char} {key : Quoted} (named : scanQuoted text = (key, rest))
include named

theorem scanMember_end (skipped : skipSpaces rest = []) (fuel : Nat) :
    scanMember (fuel + 1) text = (([], .loneKey key (.unfinished .object)), []) := by
  simp only [scanMember, named, skipped]

theorem scanMember_colon (skipped : skipSpaces rest = ':' :: left) (fuel : Nat) :
    scanMember (fuel + 1) text =
      (((key, (scanValue fuel left).1) :: (scanNextMember fuel (scanValue fuel left).2).1.1,
        (scanNextMember fuel (scanValue fuel left).2).1.2),
        (scanNextMember fuel (scanValue fuel left).2).2) := by
  simp only [scanMember, named, skipped]

theorem scanMember_other {c : Char} (skipped : skipSpaces rest = c :: left) (other : c ≠ ':')
    (fuel : Nat) :
    scanMember (fuel + 1) text = (([], .loneKey key (.malformed .noColon)), []) := by
  simp [scanMember, named, skipped, other]

end

/-- A key that the end of the text leaves without a value, and what becomes of it. -/
theorem scanMember_cut (whole more : List Char) {key key' : Quoted}
    (same : key' = key ∨ key.Cut key') (fuel : Nat) {text rest : List Char}
    (scanned : scanQuoted text = (key', rest)) :
    GoesOn (MembersCutAt whole more) more (([], .loneKey key (.unfinished .object)), [])
      (scanMember (fuel + 1) text) := by
  rw [scanMember, scanned]
  dsimp only
  split
  · exact .cut _ (.key same _)
  · exact .cut _ (.value same _ _ _)
  · exact .cut _ (.key same _)

theorem scanNextItem_nil (fuel : Nat) : scanNextItem fuel [] = (([], .unfinished), []) := by
  cases fuel <;> rfl

theorem scanNextMember_nil (fuel : Nat) : scanNextMember fuel [] = (([], .unfinished), []) := by
  cases fuel <;> rfl

mutual

/-- What is scanned of a text for a value, and of the text with more behind it. Each character pays
for three steps, so with enough of them their number does not matter. -/
theorem scanValue_append (ends : EndsNumeral more) (fuel fuel' : Nat) (text : List Char)
    (part : text <:+ whole) (enough : 3 * text.length + 1 ≤ fuel)
    (enough' : 3 * (text.length + more.length) + 1 ≤ fuel') :
    GoesOn (Doc.CutAt whole more) more (scanValue fuel text) (scanValue fuel' (text ++ more)) := by
  match fuel, fuel' with
  | 0, _ => omega
  | fuel + 1, 0 => omega
  | fuel + 1, fuel' + 1 =>
    cases skipped : skipSpaces text with
    | nil =>
      rw [scanValue, skipped]
      exact .cut _ (.absent _)
    | cons c left =>
      have skipped' := skipSpaces_append skipped more
      have behind : c :: left <:+ whole := by
        rw [← skipped]
        exact (skipSpaces_suffix text).trans part
      have inside : left <:+ whole := (List.suffix_cons c left).trans behind
      have shorter : left.length + 1 ≤ text.length := by
        have length := (skipSpaces_suffix text).length_le
        rwa [skipped] at length
      by_cases known : c ∈ ['n', 't', 'f', '"', '[', '\x7b']
      · simp only [List.mem_cons, List.not_mem_nil, or_false] at known
        rcases known with rfl | rfl | rfl | rfl | rfl | rfl
        all_goals rw [scanValue, scanValue, skipped, skipped']
        · exact wordDoc_append (fun _ _ => Doc.Cut.null) "ull" left
        · exact wordDoc_append (fun _ _ => Doc.Cut.bool true) "rue" left
        · exact wordDoc_append (fun _ _ => Doc.Cut.bool false) "alse" left
        · exact (scanQuoted_append left more).map Doc.string fun _ _ cut => Doc.Cut.string cut
        · have items := scanItems_append ends fuel fuel' left inside (by omega) (by omega)
          exact items.map (fun scanned => Doc.array scanned.1 scanned.2)
            fun _ _ cut => Doc.Cut.array cut
        · have members := scanMembers_append ends fuel fuel' left inside (by omega) (by omega)
          exact members.map (fun scanned => Doc.object scanned.1 scanned.2)
            fun _ _ cut => Doc.Cut.object cut
      · rw [scanValue_other skipped known, scanValue_other skipped' known]
        by_cases head : c = '-' ∨ c.isDigit = true
        · rw [if_pos head, if_pos head]
          exact numeralDoc_append ends behind
        · rw [if_neg head, if_neg head]
          exact .stuck _

theorem scanItems_append (ends : EndsNumeral more) (fuel fuel' : Nat) (text : List Char)
    (part : text <:+ whole) (enough : 3 * text.length + 3 ≤ fuel)
    (enough' : 3 * (text.length + more.length) + 3 ≤ fuel') :
    GoesOn (ItemsCutAt whole more) more (scanItems fuel text) (scanItems fuel' (text ++ more)) := by
  match fuel, fuel' with
  | 0, _ => omega
  | fuel + 1, 0 => omega
  | fuel + 1, fuel' + 1 =>
    cases skipped : skipSpaces text with
    | nil =>
      rw [scanItems, skipped]
      exact .cut _ (.behind _ _)
    | cons c left =>
      have skipped' := skipSpaces_append skipped more
      have behind : c :: left <:+ text := skipped ▸ skipSpaces_suffix text
      by_cases bracket : c = ']'
      · subst bracket
        rw [scanItems, scanItems, skipped, skipped']
        exact .whole _ left
      · have shorter := behind.length_le
        rw [scanItems_item skipped bracket, scanItems_item skipped' bracket]
        exact scanItem_append ends fuel fuel' (c :: left) (behind.trans part) (by omega) (by omega)

theorem scanItem_append (ends : EndsNumeral more) (fuel fuel' : Nat) (text : List Char)
    (part : text <:+ whole) (enough : 3 * text.length + 2 ≤ fuel)
    (enough' : 3 * (text.length + more.length) + 2 ≤ fuel') :
    GoesOn (ItemsCutAt whole more) more (scanItem fuel text) (scanItem fuel' (text ++ more)) := by
  match fuel, fuel' with
  | 0, _ => omega
  | fuel + 1, 0 => omega
  | fuel + 1, fuel' + 1 =>
    have value := scanValue_append ends fuel fuel' text part (by omega) (by omega)
    have behind := scanValue_suffix fuel text
    have shorter := length_of_suffix_tail behind
    have next := scanNextItem_append ends fuel fuel' (scanValue fuel text).2
      ((suffix_of_tail behind).trans part) (by omega) (by omega)
    rw [scanItem, scanItem]
    exact value.andThen next (scanNextItem_nil fuel) (scanNextItem_nil fuel')
      (fun item scanned => (item :: scanned.1, scanned.2)) (fun item _ _ cut => .item item cut)
      fun _ _ scanned' cut => .last cut scanned'.1 scanned'.2

theorem scanNextItem_append (ends : EndsNumeral more) (fuel fuel' : Nat) (text : List Char)
    (part : text <:+ whole) (enough : 3 * text.length + 1 ≤ fuel)
    (enough' : 3 * (text.length + more.length) + 1 ≤ fuel') :
    GoesOn (ItemsCutAt whole more) more (scanNextItem fuel text)
      (scanNextItem fuel' (text ++ more)) := by
  match fuel, fuel' with
  | 0, _ => omega
  | fuel + 1, 0 => omega
  | fuel + 1, fuel' + 1 =>
    cases skipped : skipSpaces text with
    | nil =>
      rw [scanNextItem, skipped]
      exact .cut _ (.behind _ _)
    | cons c left =>
      have skipped' := skipSpaces_append skipped more
      have behind : c :: left <:+ text := skipped ▸ skipSpaces_suffix text
      have shorter := behind.length_le
      rw [List.length_cons] at shorter
      by_cases bracket : c = ']'
      · subst bracket
        rw [scanNextItem, scanNextItem, skipped, skipped']
        exact .whole _ left
      · by_cases comma : c = ','
        · subst comma
          cases inner : skipSpaces left with
          | nil =>
            obtain ⟨fuel, rfl⟩ : ∃ n, fuel = n + 1 := ⟨fuel - 1, by omega⟩
            obtain ⟨fuel', rfl⟩ : ∃ n, fuel' = n + 1 := ⟨fuel' - 1, by omega⟩
            have here : scanNextItem (fuel + 1 + 1) text =
                (([.broken .absent], .unfinished), []) := by
              rw [scanNextItem, skipped]
              simp only [inner]
              exact scanItem_nil fuel
            rw [here]
            have inner' : skipSpaces (left ++ more) = skipSpaces more :=
              skipSpaces_of_blank inner more
            obtain ⟨gap, blank, split⟩ := gap_skipSpaces more
            cases next : skipSpaces more with
            | nil =>
              rw [scanNextItem, skipped']
              simp only [inner', next, scanItem_nil]
              exact .stuck _
            | cons d tail =>
              by_cases bracket' : d = ']'
              · subst bracket'
                rw [scanNextItem, skipped']
                simp only [inner', next]
                refine .cut _ (.comma ⟨⟨left, gap_of_skipSpaces inner, behind.trans part⟩,
                  gap, tail, blank, ?_⟩)
                rw [← next]
                exact split
              · rw [scanNextItem_item skipped' (inner'.trans next) bracket', scanItem]
                exact .cut _ (.last (.absent _) _ _)
          | cons d left' =>
            have inner' := skipSpaces_append inner more
            have behind' : d :: left' <:+ left := inner ▸ skipSpaces_suffix left
            have shorter' := behind'.length_le
            by_cases bracket' : d = ']'
            · subst bracket'
              rw [scanNextItem, scanNextItem, skipped, skipped']
              simp only [inner, inner']
              exact .stuck _
            · rw [scanNextItem_item skipped inner bracket',
                scanNextItem_item skipped' inner' bracket']
              refine scanItem_append ends fuel fuel' (d :: left') ?_ (by omega) (by omega)
              exact behind'.trans ((List.suffix_cons ',' left).trans (behind.trans part))
        · have other {text left : List Char} (skipped : skipSpaces text = c :: left) (fuel : Nat) :
              scanNextItem (fuel + 1) text = (([], .unseparated), []) := by
            simp [scanNextItem, skipped, bracket, comma]
          rw [other skipped, other skipped']
          exact .stuck _

theorem scanMembers_append (ends : EndsNumeral more) (fuel fuel' : Nat) (text : List Char)
    (part : text <:+ whole) (enough : 3 * text.length + 1 ≤ fuel)
    (enough' : 3 * (text.length + more.length) + 1 ≤ fuel') :
    GoesOn (MembersCutAt whole more) more (scanMembers fuel text)
      (scanMembers fuel' (text ++ more)) := by
  match fuel, fuel' with
  | 0, _ => omega
  | fuel + 1, 0 => omega
  | fuel + 1, fuel' + 1 =>
    cases skipped : skipSpaces text with
    | nil =>
      rw [scanMembers, skipped]
      exact .cut _ (.behind _ _)
    | cons c left =>
      have skipped' := skipSpaces_append skipped more
      have behind : c :: left <:+ text := skipped ▸ skipSpaces_suffix text
      have shorter := behind.length_le
      rw [List.length_cons] at shorter
      by_cases brace : c = '\x7d'
      · subst brace
        rw [scanMembers, scanMembers, skipped, skipped']
        exact .whole _ left
      · by_cases quote : c = '"'
        · subst quote
          rw [scanMembers, scanMembers, skipped, skipped']
          exact scanMember_append ends fuel fuel' left
            ((List.suffix_cons '"' left).trans (behind.trans part)) (by omega) (by omega)
        · have other {text left : List Char} (skipped : skipSpaces text = c :: left) (fuel : Nat) :
              scanMembers (fuel + 1) text = (([], .notKey), []) := by
            simp [scanMembers, skipped, brace, quote]
          rw [other skipped, other skipped']
          exact .stuck _

theorem scanMember_append (ends : EndsNumeral more) (fuel fuel' : Nat) (text : List Char)
    (part : text <:+ whole) (enough : 3 * text.length + 2 ≤ fuel)
    (enough' : 3 * (text.length + more.length) + 2 ≤ fuel') :
    GoesOn (MembersCutAt whole more) more (scanMember fuel text)
      (scanMember fuel' (text ++ more)) := by
  match fuel, fuel' with
  | 0, _ => omega
  | fuel + 1, 0 => omega
  | fuel + 1, fuel' + 1 =>
    have named := scanQuoted_append text more
    cases here : scanQuoted text with
    | mk key rest =>
      cases there : scanQuoted (text ++ more) with
      | mk key' rest' =>
        rw [here, there] at named
        cases named with
        | stuck =>
          rw [scanMember_end here rfl, scanMember_end there rfl]
          exact .stuck _
        | cut _ becomes =>
          rw [scanMember_end here rfl]
          exact scanMember_cut whole more (.inr becomes) fuel' there
        | whole =>
          cases skipped : skipSpaces rest with
          | nil =>
            rw [scanMember_end here skipped]
            exact scanMember_cut whole more (.inl rfl) fuel' there
          | cons c left =>
            have skipped' := skipSpaces_append skipped more
            by_cases colon : c = ':'
            · subst colon
              have split : ':' :: left <:+ text :=
                (skipped ▸ skipSpaces_suffix rest).trans (scanQuoted_suffix here)
              have shorter := split.length_le
              rw [List.length_cons] at shorter
              have inside : left <:+ whole := (List.suffix_cons ':' left).trans (split.trans part)
              have value := scanValue_append ends fuel fuel' left inside (by omega) (by omega)
              have behind := scanValue_suffix fuel left
              have shorter' := length_of_suffix_tail behind
              have next := scanNextMember_append ends fuel fuel' (scanValue fuel left).2
                ((suffix_of_tail behind).trans inside) (by omega) (by omega)
              rw [scanMember_colon here skipped, scanMember_colon there skipped']
              exact value.andThen next (scanNextMember_nil fuel) (scanNextMember_nil fuel')
                (fun doc scanned => ((key, doc) :: scanned.1, scanned.2))
                (fun doc _ _ cut => .member (key, doc) cut)
                fun _ _ scanned' cut => .last key cut scanned'.1 scanned'.2
            · rw [scanMember_other here skipped colon, scanMember_other there skipped' colon]
              exact .stuck _

theorem scanNextMember_append (ends : EndsNumeral more) (fuel fuel' : Nat) (text : List Char)
    (part : text <:+ whole) (enough : 3 * text.length + 1 ≤ fuel)
    (enough' : 3 * (text.length + more.length) + 1 ≤ fuel') :
    GoesOn (MembersCutAt whole more) more (scanNextMember fuel text)
      (scanNextMember fuel' (text ++ more)) := by
  match fuel, fuel' with
  | 0, _ => omega
  | fuel + 1, 0 => omega
  | fuel + 1, fuel' + 1 =>
    cases skipped : skipSpaces text with
    | nil =>
      rw [scanNextMember, skipped]
      exact .cut _ (.behind _ _)
    | cons c left =>
      have skipped' := skipSpaces_append skipped more
      have behind : c :: left <:+ text := skipped ▸ skipSpaces_suffix text
      have shorter := behind.length_le
      rw [List.length_cons] at shorter
      by_cases brace : c = '\x7d'
      · subst brace
        rw [scanNextMember, scanNextMember, skipped, skipped']
        exact .whole _ left
      · by_cases comma : c = ','
        · subst comma
          cases inner : skipSpaces left with
          | nil =>
            obtain ⟨fuel', rfl⟩ : ∃ n, fuel' = n + 1 := ⟨fuel' - 1, by omega⟩
            have here : scanNextMember (fuel + 1) text = (([], .cutAfterComma), []) := by
              simp only [scanNextMember, skipped, inner]
            rw [here]
            exact .cut _ (.comma (scanNextMember_comma fuel' skipped'))
          | cons d left' =>
            have inner' := skipSpaces_append inner more
            by_cases quote : d = '"'
            · subst quote
              have behind' : '"' :: left' <:+ left := inner ▸ skipSpaces_suffix left
              have shorter' := behind'.length_le
              rw [List.length_cons] at shorter'
              rw [scanNextMember, scanNextMember, skipped, skipped']
              simp only [inner, inner']
              refine scanMember_append ends fuel fuel' left' ?_ (by omega) (by omega)
              exact (List.suffix_cons '"' left').trans
                (behind'.trans ((List.suffix_cons ',' left).trans (behind.trans part)))
            · have noKey {text left tail : List Char} (skipped : skipSpaces text = ',' :: left)
                  (inner : skipSpaces left = d :: tail) (fuel : Nat) :
                  scanNextMember (fuel + 1) text =
                    (([], if d = '\x7d' then .trailingComma else .notKey), []) := by
                by_cases brace' : d = '\x7d' <;>
                  simp [scanNextMember, skipped, inner, quote, brace']
              rw [noKey skipped inner, noKey skipped' inner']
              exact .stuck _
        · have other {text left : List Char} (skipped : skipSpaces text = c :: left) (fuel : Nat) :
              scanNextMember (fuel + 1) text = (([], .unseparated), []) := by
            simp [scanNextMember, skipped, brace, comma]
          rw [other skipped, other skipped']
          exact .stuck _

end

end

/-! ## Whole texts -/

mutual

/-- Marking containers that are nested too deep leaves the place at which a text ends alone. -/
theorem Doc.Cut.limitDepth {signed bracketed : Prop} {doc doc' : Doc}
    (cut : Doc.Cut signed bracketed doc doc') (room : Nat) :
    Doc.Cut signed bracketed (doc.limitDepth room) (doc'.limitDepth room) := by
  cases cut with
  | absent doc' => exact .absent _
  | word isNull ended => exact .word isNull ended
  | null => exact .null
  | bool value => exact .bool value
  | numeral ended => exact .numeral ended
  | number sign numeral => exact .number sign numeral
  | string inside => exact .string inside
  | array inside =>
    cases room with
    | zero => exact .deepArray inside
    | succ room => exact .array (inside.limitItems room)
  | object inside =>
    cases room with
    | zero => exact .deepObject inside
    | succ room => exact .object (inside.limitMembers room)
  | deepArray inside => exact .deepArray inside
  | deepObject inside => exact .deepObject inside

theorem ItemsCut.limitItems {signed bracketed : Prop} {items items' : List Doc}
    {ending ending' : ListEnd} (cut : ItemsCut signed bracketed items ending items' ending')
    (room : Nat) : ItemsCut signed bracketed (Doc.limitItems room items) ending
      (Doc.limitItems room items') ending' := by
  cases cut with
  | behind items' => exact .behind _ _
  | comma bracket => exact .comma bracket
  | item item others => exact .item _ (others.limitItems room)
  | last inside items' => exact .last (inside.limitDepth room) _ _

theorem MembersCut.limitMembers {signed bracketed : Prop} {members members' : List (Quoted × Doc)}
    {ending ending' : ObjectEnd} (cut : MembersCut signed bracketed members ending members' ending')
    (room : Nat) : MembersCut signed bracketed (Doc.limitMembers room members) ending
      (Doc.limitMembers room members') ending' := by
  cases cut with
  | behind members' => exact .behind _ _
  | comma goes =>
    refine .comma (goes.imp_left fun some none => some ?_)
    cases members' with
    | nil => rfl
    | cons member members' => cases none
  | key same fault' => exact .key same fault'
  | value same value' members' => exact .value same _ _ _
  | member member others => exact .member (member.1, _) (others.limitMembers room)
  | last key inside members' => exact .last key (inside.limitDepth room) _ _

end

/-- The document of a text goes on with the text. -/
theorem Doc.scan_append {text more : String} (ends : EndsNumeral more.toList) :
    GoesOn (Doc.CutAt text.toList more.toList) more.toList (Doc.scan text)
      (Doc.scan (text ++ more)) := by
  have lengths : (text ++ more).length = text.toList.length + more.toList.length := by
    rw [String.length_append, String.length_toList, String.length_toList]
  have goes := scanValue_append ends (3 * text.length + 3) (3 * (text ++ more).length + 3)
    text.toList (List.suffix_refl _) (by rw [String.length_toList]; omega) (by omega)
  unfold Doc.scan
  rw [String.toList_append]
  exact goes.map (Doc.limitDepth maxDepth) fun _ _ cut => cut.limitDepth maxDepth

end RulesText.Json
