import RulesText.Proofs.Scanned

/-!
# Tokens of a text that goes on

What the scanner finds in a text, and what it finds when the text goes on. A token that ends within
the text is the same token in front of more text, and a fault within the text is the same fault.
Only a token that the end of the text cuts off may become another one: a longer string, a word or a
numeral. A numeral that is cut off is a fault in front of anything that could not belong to a
numeral, with one exception: behind the letter of an exponent a sign may follow, and digits.
-/

namespace RulesText.Json

/-! ## Going on -/

/-- What is scanned of a text, and of the text with more behind it: the same with more left over,
the same fault with nothing left over in both, or something that the end of the text cuts off and
what becomes of it. -/
inductive GoesOn {α : Type} (Cut : α → α → Prop) (more : List Char) :
    α × List Char → α × List Char → Prop
  | whole (a : α) (rest : List Char) : GoesOn Cut more (a, rest) (a, rest ++ more)
  | stuck (a : α) : GoesOn Cut more (a, []) (a, [])
  | cut {a a' : α} (rest' : List Char) (becomes : Cut a a') : GoesOn Cut more (a, []) (a', rest')

theorem GoesOn.map {α β : Type} {Cut : α → α → Prop} {Cut' : β → β → Prop} {more : List Char}
    {scanned scanned' : α × List Char} (goes : GoesOn Cut more scanned scanned') (build : α → β)
    (becomes : ∀ a a', Cut a a' → Cut' (build a) (build a')) :
    GoesOn Cut' more (build scanned.1, scanned.2) (build scanned'.1, scanned'.2) := by
  cases goes with
  | whole a rest => exact .whole (build a) rest
  | stuck a => exact .stuck (build a)
  | cut rest' inside => exact .cut rest' (becomes _ _ inside)

/-- Two steps of the scanner, one behind the other. If the text ends within the first, or is at
fault there, the second has nothing to take. -/
theorem GoesOn.andThen {α β γ : Type} {Cut : α → α → Prop} {CutNext : β → β → Prop}
    {CutBoth : γ → γ → Prop} {more : List Char} {scanned scanned' : α × List Char}
    (first : GoesOn Cut more scanned scanned') {next next' : List Char → β × List Char}
    (goes : GoesOn CutNext more (next scanned.2) (next' (scanned.2 ++ more)))
    {none : β} (ended : next [] = (none, [])) (ended' : next' [] = (none, [])) (build : α → β → γ)
    (becomes : ∀ a b b', CutNext b b' → CutBoth (build a b) (build a b'))
    (becomes' : ∀ a a' b', Cut a a' → CutBoth (build a none) (build a' b')) :
    GoesOn CutBoth more (build scanned.1 (next scanned.2).1, (next scanned.2).2)
      (build scanned'.1 (next' scanned'.2).1, (next' scanned'.2).2) := by
  cases first with
  | whole a rest => exact goes.map (build a) (becomes a)
  | stuck a =>
    simp only [ended, ended']
    exact .stuck _
  | cut rest' cut =>
    simp only [ended]
    exact .cut _ (becomes' _ _ _ cut)

/-- Whether a text ends behind the letter of an exponent and more text begins with a sign. -/
def SignBehindExponent (text more : List Char) : Prop :=
  (∃ c ∈ text.getLast?, c = 'e' ∨ c = 'E') ∧ ∃ c ∈ more.head?, c = '+' ∨ c = '-'

/-! ## Numerals -/

/-- What a part of a numeral is found to be when the text goes on: the same part, the same fault, or
some fault if the text ended too early, unless a sign may follow there. -/
def PartGoesOn {α : Type} (signed : Prop) (more : List Char) :
    Except Bool (α × List Char) → Except Bool (α × List Char) → Prop
  | .ok (a, rest), longer => longer = .ok (a, rest ++ more)
  | .error false, longer => longer = .error false
  | .error true, longer => signed ∨ ∃ cut, longer = .error cut

theorem PartGoesOn.bind {α β : Type} {signed : Prop} {more : List Char}
    {part part' : Except Bool (α × List Char)} (goes : PartGoesOn signed more part part')
    {next : α × List Char → Except Bool (β × List Char)}
    (behind : ∀ a rest, part = .ok (a, rest) →
      PartGoesOn signed more (next (a, rest)) (next (a, rest ++ more))) :
    PartGoesOn signed more (part >>= next) (part' >>= next) := by
  match part with
  | .ok (a, rest) =>
    obtain rfl := goes
    exact behind a rest rfl
  | .error false =>
    obtain rfl := goes
    rfl
  | .error true =>
    rcases goes with sign | ⟨cut, rfl⟩
    · exact .inl sign
    · exact .inr ⟨cut, rfl⟩

section

variable {signed : Prop} {more : List Char} (ends : EndsNumeral more)
include ends

theorem scanDigits_append (text : List Char) :
    scanDigits (text ++ more) = ((scanDigits text).1, (scanDigits text).2 ++ more) := by
  have run : ∀ c ∈ text.takeWhile Char.isDigit, c.isDigit = true :=
    List.all_eq_true.1 List.all_takeWhile
  have behind : ∀ c ∈ (text.dropWhile Char.isDigit ++ more).head?, ¬ c.isDigit = true := by
    refine head_append (fun c first => ?_) fun c first => (ends c first).1
    have other := List.head?_dropWhile_not Char.isDigit text
    rw [Option.mem_def.1 first] at other
    simpa using other
  have whole := scanDigits_run run behind
  rwa [← List.append_assoc, List.takeWhile_append_dropWhile] at whole

theorem scanSomeDigits_append (text : List Char) :
    PartGoesOn signed more (scanSomeDigits text) (scanSomeDigits (text ++ more)) := by
  unfold scanSomeDigits
  rw [scanDigits_append ends]
  cases scanned : scanDigits text with
  | mk digits rest =>
    cases digits with
    | cons d digits => rfl
    | nil =>
      cases rest with
      | nil => exact .inr ⟨_, rfl⟩
      | cons c rest => rfl

theorem scanWhole_append (text : List Char) :
    PartGoesOn signed more (scanWhole text) (scanWhole (text ++ more)) := by
  by_cases zero : ∃ rest, text = '0' :: rest
  · obtain ⟨rest, rfl⟩ := zero
    have next : (rest ++ more).head?.any Char.isDigit = rest.head?.any Char.isDigit := by
      cases rest with
      | cons c rest => rfl
      | nil =>
        cases first : more.head? with
        | none => simp [first]
        | some c => simpa [first] using (ends c first).1
    rw [List.cons_append, scanWhole, scanWhole, next]
    split <;> rfl
  · have other {text : List Char} (other : ∀ c ∈ text.head?, c ≠ '0') :
        scanWhole text = scanSomeDigits text := by
      cases text with
      | nil => rfl
      | cons c text => exact scanWhole_other (other c rfl) text
    have own : ∀ c ∈ text.head?, c ≠ '0' := by
      rintro _ first rfl
      obtain ⟨rest, rfl⟩ := List.head?_eq_some_iff.1 first
      exact zero ⟨rest, rfl⟩
    have after : ∀ c ∈ more.head?, c ≠ '0' := by
      rintro _ first rfl
      exact (ends '0' first).1 (by decide)
    rw [other own, other (head_append own after)]
    exact scanSomeDigits_append ends text

theorem scanFraction_append (text : List Char) :
    PartGoesOn signed more (scanFraction text) (scanFraction (text ++ more)) := by
  by_cases point : ∃ rest, text = '.' :: rest
  · obtain ⟨rest, rfl⟩ := point
    exact scanSomeDigits_append ends rest
  · have other {text : List Char} (other : ∀ c ∈ text.head?, c ≠ '.') :
        scanFraction text = .ok ([], text) := by
      cases text with
      | nil => rfl
      | cons c text =>
        rw [scanFraction]
        rintro _ ⟨rfl, _⟩
        exact other '.' rfl rfl
    have own : ∀ c ∈ text.head?, c ≠ '.' := by
      rintro _ first rfl
      obtain ⟨rest, rfl⟩ := List.head?_eq_some_iff.1 first
      exact point ⟨rest, rfl⟩
    rw [other own, other (head_append own fun c first => (ends c first).2.1)]
    rfl

/-- Only here more text can make a numeral of what was cut off: its sign stands behind the letter
of the exponent. -/
theorem scanExponent_append {text whole : List Char} (part : text <:+ whole) :
    PartGoesOn (SignBehindExponent whole more) more (scanExponent text)
      (scanExponent (text ++ more)) := by
  cases text with
  | nil => exact scanExponent_ends ends
  | cons c rest =>
    by_cases letter : c = 'e' ∨ c = 'E'
    · have parts (text : List Char) : scanExponent (c :: text) =
          (scanSomeDigits (scanSign text).2 >>= fun part =>
            let magnitude : Int := ofDigits 0 part.1
            pure (some (if (scanSign text).1 then -magnitude else magnitude), part.2)) := by
        simp only [scanExponent, if_pos letter]
      rw [List.cons_append, parts, parts]
      by_cases sign : rest = [] ∧ ∃ d ∈ more.head?, d = '+' ∨ d = '-'
      · obtain ⟨rfl, sign⟩ := sign
        have last : ∃ c ∈ whole.getLast?, c = 'e' ∨ c = 'E' := by
          obtain ⟨front, rfl⟩ := part
          exact ⟨c, by simp, letter⟩
        exact .inl ⟨last, sign⟩
      · have signs : scanSign (rest ++ more) = ((scanSign rest).1, (scanSign rest).2 ++ more) := by
          cases rest with
          | nil =>
            cases more with
            | nil => rfl
            | cons d more =>
              have plain : d ≠ '+' ∧ d ≠ '-' := by simpa using sign
              simp [scanSign, plain]
          | cons d rest =>
            by_cases plus : d = '+'
            · rw [plus]
              rfl
            · by_cases minus : d = '-'
              · rw [minus]
                rfl
              · simp [scanSign, plus, minus]
        rw [signs]
        exact (scanSomeDigits_append ends _).bind fun digits rest _ => rfl
    · simp [scanExponent, letter, PartGoesOn]

theorem scanMagnitude_append (negative : Bool) {text whole : List Char} (part : text <:+ whole) :
    PartGoesOn (SignBehindExponent whole more) more (scanMagnitude negative text)
      (scanMagnitude negative (text ++ more)) := by
  refine (scanWhole_append ends text).bind fun digits rest scanned => ?_
  obtain ⟨run, _, _, rfl, _⟩ := scanWhole_run scanned
  refine (scanFraction_append ends rest).bind fun digits' rest' scanned' => ?_
  obtain ⟨point, rfl, _⟩ := scanFraction_part scanned'
  have behind : rest' <:+ whole :=
    (List.suffix_append point rest').trans ((List.suffix_append run _).trans part)
  exact (scanExponent_append ends behind).bind fun exponent rest _ => rfl

theorem scanNumeral_append {c : Char} {text whole : List Char} (part : c :: text <:+ whole) :
    PartGoesOn (SignBehindExponent whole more) more (scanNumeral (c :: text))
      (scanNumeral (c :: text ++ more)) := by
  by_cases minus : c = '-'
  · subst minus
    exact scanMagnitude_append ends true ((List.suffix_cons '-' text).trans part)
  · have unsigned (text : List Char) : ∀ d ∈ (c :: text).head?, d ≠ '-' := by
      rintro _ ⟨⟩
      exact minus
    rw [List.cons_append, scanNumeral_unsigned (unsigned _), scanNumeral_unsigned (unsigned _)]
    exact scanMagnitude_append ends false part

end

/-! ## Words -/

/-- A word that is read to its end, or to a wrong letter, is read so when the text goes on. -/
theorem scanWord_append (word text more : List Char) :
    match scanWord word text with
    | .ok rest => scanWord word (text ++ more) = .ok (rest ++ more)
    | .error false => scanWord word (text ++ more) = .error false
    | .error true => True := by
  induction word generalizing text with
  | nil => rfl
  | cons expected word ih =>
    cases text with
    | nil => trivial
    | cons c text =>
      by_cases same : c = expected
      · simpa only [List.cons_append, scanWord, if_pos same] using ih text
      · simp only [List.cons_append, scanWord, if_neg same]

/-! ## Quoted strings -/

/-- A string that is cut off and a string that begins with the same pieces. -/
structure Quoted.Cut (quoted quoted' : Quoted) : Prop where
  unfinished : quoted.ending = .unfinished
  pieces : quoted.pieces <+: quoted'.pieces

theorem GoesOn.push {more : List Char} {scanned scanned' : Quoted × List Char}
    (goes : GoesOn Quoted.Cut more scanned scanned') (piece : Piece) :
    GoesOn Quoted.Cut more (pushPiece piece scanned) (pushPiece piece scanned') := by
  cases goes with
  | whole quoted rest => exact .whole _ rest
  | stuck quoted => exact .stuck _
  | cut rest' becomes =>
    exact .cut rest' ⟨becomes.unfinished, List.cons_prefix_cons.2 ⟨rfl, becomes.pieces⟩⟩

/-- A hexadecimal digit is a single byte. -/
theorem utf8Size_of_hexDigit {c : Char} {value : Nat} (digit : hexDigit? c = some value) :
    c.utf8Size = 1 := by
  rw [Char.utf8Size_eq_one_iff]
  unfold hexDigit? at digit
  split at digit
  · rename_i decimal
    simp only [Char.isDigit, Bool.and_eq_true, decide_eq_true_eq] at decimal
    exact Nat.le_trans decimal.2 (by decide)
  · split at digit
    · rename_i lower
      exact Nat.le_trans lower.2 (by decide)
    · split at digit
      · rename_i upper
        exact Nat.le_trans upper.2 (by decide)
      · cases digit

theorem utf8ByteSize_of_hexDigits {text : List Char}
    (digits : ∀ c ∈ text, hexDigit? c ≠ none) :
    (String.ofList text).utf8ByteSize = text.length := by
  induction text with
  | nil => rfl
  | cons c text ih =>
    obtain ⟨value, digit⟩ := Option.ne_none_iff_exists'.1 (digits c List.mem_cons_self)
    rw [String.ofList_cons, String.utf8ByteSize_append, String.utf8ByteSize_singleton,
      utf8Size_of_hexDigit digit, ih fun d later => digits d (List.mem_cons_of_mem c later),
      List.length_cons, Nat.add_comm]

theorem unit?_eq_none {a b c d : Char}
    (other : ∃ e ∈ [a, b, c], hexDigit? e = none) : unit? a b c d = none := by
  unfold unit?
  simp only [List.mem_cons, List.not_mem_nil, or_false, exists_eq_or_imp, exists_eq_left] at other
  rcases other with none | none | none
  · simp [none]
  · cases hexDigit? a <;> simp [none]
  · cases hexDigit? a <;> cases hexDigit? b <;> simp [none]

/-- Fewer than four characters of four bytes or more are not all digits, so the escape is a bad one
whatever follows. -/
theorem scanQuoted_badUnit {text : List Char} (few : text.length < 4)
    (long : 4 ≤ (String.ofList text).utf8ByteSize) (more : List Char) :
    scanQuoted ('\\' :: 'u' :: (text ++ more)) = (⟨[], .badUnit⟩, []) := by
  have other : ∃ e ∈ text, hexDigit? e = none := by
    by_cases digits : ∀ c ∈ text, hexDigit? c ≠ none
    · have size := utf8ByteSize_of_hexDigits digits
      omega
    · simpa using digits
  by_cases four : ∃ a b c d rest, text ++ more = a :: b :: c :: d :: rest
  · obtain ⟨a, b, c, d, rest, split⟩ := four
    have front : text <+: [a, b, c] := by
      have whole : [a, b, c] <+: text ++ more := ⟨d :: rest, by rw [split]; rfl⟩
      exact List.prefix_of_prefix_length_le (List.prefix_append text more) whole
        (Nat.le_of_lt_succ few)
    obtain ⟨e, inside, noDigit⟩ := other
    have unread : unit? a b c d = none := unit?_eq_none ⟨e, front.subset inside, noDigit⟩
    rw [split, scanQuoted, unread]
  · rw [scanQuoted, if_neg]
    · rw [String.ofList_append, String.utf8ByteSize_append]
      omega
    · intro a b c d rest split
      exact four ⟨a, b, c, d, rest, split⟩

theorem scanQuoted_badEscape {e : Char} (short : shortEscape? e = none) (other : e ≠ 'u')
    (rest : List Char) : scanQuoted ('\\' :: e :: rest) = (⟨[], .badEscape⟩, []) := by
  rw [scanQuoted, short]
  · intro a b c d left same
    exact absurd same other
  · exact other

theorem scanQuoted_control {c : Char} (control : c < ' ') (rest : List Char) :
    scanQuoted (c :: rest) = (⟨[], .controlCharacter⟩, []) := by
  rw [scanQuoted, if_pos control]
  all_goals
    intros
    subst_vars
    revert control
    decide

theorem scanQuoted_append (text more : List Char) :
    GoesOn Quoted.Cut more (scanQuoted text) (scanQuoted (text ++ more)) := by
  induction text using scanQuoted.induct with
  | case1 => exact .cut _ ⟨rfl, List.nil_prefix⟩
  | case2 left => exact .whole _ _
  | case3 => exact .cut _ ⟨rfl, List.nil_prefix⟩
  | case4 a b c d left code unit ih =>
    have step := scanQuoted_unit unit
    rw [step]
    simp only [List.cons_append, step]
    exact ih.push _
  | case5 a b c d left unit =>
    simp only [List.cons_append, scanQuoted, unit]
    exact .stuck _
  | case6 left few short =>
    rw [scanQuoted, if_pos short]
    · exact .cut _ ⟨rfl, List.nil_prefix⟩
    · exact few
  | case7 left few long =>
    have three : left.length < 4 := by
      rcases left with _ | ⟨a, _ | ⟨b, _ | ⟨c, _ | ⟨d, left⟩⟩⟩⟩
      case cons.cons.cons.cons => exact absurd rfl (few a b c d left)
      all_goals simp
    have bad := scanQuoted_badUnit three (Nat.le_of_not_lt long)
    have here := bad []
    rw [List.append_nil] at here
    rw [here, List.cons_append, List.cons_append, bad more]
    exact .stuck _
  | case8 e left few other c short ih =>
    rw [scanQuoted_short short]
    simp only [List.cons_append, scanQuoted_short short]
    exact ih.push _
  | case9 e left few other short =>
    rw [scanQuoted_badEscape short other]
    simp only [List.cons_append, scanQuoted_badEscape short other]
    exact .stuck _
  | case10 c left quote last unit fewUnit escape control =>
    rw [List.cons_append, scanQuoted_control control, scanQuoted_control control]
    exact .stuck _
  | case11 c left quote last _ _ escape plain ih =>
    have backslash : c ≠ '\\' := by
      intro same
      cases left with
      | nil => exact last same rfl
      | cons e left => exact escape e left same rfl
    rw [List.cons_append, scanQuoted_plain quote backslash plain,
      scanQuoted_plain quote backslash plain]
    exact ih.push _

end RulesText.Json
