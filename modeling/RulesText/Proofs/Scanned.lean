import RulesText.Proofs.Spelling
import RulesText.Proofs.Yields

/-!
# Scanned tokens are spelled by their text

What the scanner takes of a text for a numeral, a word or a string spells that numeral, word or
string: in front of another text it would have been taken for the same.
-/

namespace RulesText.Json

/-! ## Numerals -/

/-- What holds of the first character of two texts holds of the first character of both together. -/
theorem head_append {P : Char → Prop} {front back : List Char} (own : ∀ c ∈ front.head?, P c)
    (after : ∀ c ∈ back.head?, P c) : ∀ c ∈ (front ++ back).head?, P c := by
  cases front with
  | nil => exact after
  | cons first front => exact own

theorem scanDigits_run {run rest : List Char} (digits : ∀ c ∈ run, c.isDigit = true)
    (ends : ∀ c ∈ rest.head?, ¬ c.isDigit = true) :
    scanDigits (run ++ rest) = (run.map digit, rest) := by
  have none : rest.takeWhile Char.isDigit = [] ∧ rest.dropWhile Char.isDigit = rest := by
    cases rest with
    | nil => exact ⟨rfl, rfl⟩
    | cons c rest =>
      have other := ends c rfl
      exact ⟨by simp [other], by simp [other]⟩
  unfold scanDigits
  rw [List.takeWhile_append_of_pos digits, List.dropWhile_append_of_pos digits, none.1, none.2,
    List.append_nil]

theorem scanSomeDigits_eq_ok_iff {text rest : List Char} {digits : List Nat} :
    scanSomeDigits text = .ok (digits, rest) ↔ digits ≠ [] ∧ scanDigits text = (digits, rest) := by
  unfold scanSomeDigits
  cases scanned : scanDigits text with
  | mk found left =>
    cases found with
    | nil => exact ⟨nofun, fun ⟨nonempty, same⟩ => absurd (Prod.mk.inj same).1.symm nonempty⟩
    | cons d found =>
      constructor
      · rintro ⟨rfl⟩
        exact ⟨by simp, rfl⟩
      · rintro ⟨_, ⟨rfl⟩⟩
        rfl

/-- Digits that were scanned are a run of them, and are scanned again in front of anything else. -/
theorem scanSomeDigits_run {text rest : List Char} {digits : List Nat}
    (read : scanSomeDigits text = .ok (digits, rest)) : ∃ run,
      run ≠ [] ∧ (∀ c ∈ run, c.isDigit = true) ∧ text = run ++ rest ∧
        ∀ rest', (∀ c ∈ rest'.head?, ¬ c.isDigit = true) →
          scanSomeDigits (run ++ rest') = .ok (digits, rest') := by
  obtain ⟨nonempty, scanned⟩ := scanSomeDigits_eq_ok_iff.1 read
  obtain ⟨rfl, rfl⟩ := Prod.mk.inj scanned
  have each : ∀ c ∈ text.takeWhile Char.isDigit, c.isDigit = true :=
    List.all_eq_true.1 List.all_takeWhile
  refine ⟨_, fun none => nonempty (by rw [none]; rfl), each, List.takeWhile_append_dropWhile.symm,
    fun rest' ends => ?_⟩
  exact scanSomeDigits_eq_ok_iff.2 ⟨nonempty, scanDigits_run each ends⟩

theorem scanWhole_other {c : Char} (other : c ≠ '0') (text : List Char) :
    scanWhole (c :: text) = scanSomeDigits (c :: text) := by
  rw [scanWhole]
  intro rest same
  exact absurd (List.cons.inj same).1 other

/-- A whole part that was scanned is a run of digits, and is scanned again in front of anything
else. -/
theorem scanWhole_run {text rest : List Char} {digits : List Nat}
    (read : scanWhole text = .ok (digits, rest)) : ∃ run,
      run ≠ [] ∧ (∀ c ∈ run, c.isDigit = true) ∧ text = run ++ rest ∧
        ∀ rest', (∀ c ∈ rest'.head?, ¬ c.isDigit = true) →
          scanWhole (run ++ rest') = .ok (digits, rest') := by
  unfold scanWhole at read
  split at read
  · rename_i left
    split at read
    · cases read
    · cases read
      refine ⟨['0'], by simp, by simp, rfl, fun rest' ends => ?_⟩
      have other : ¬ rest'.head?.any Char.isDigit = true := by
        rw [Option.any_eq_true]
        rintro ⟨c, first, isDigit⟩
        exact ends c first isDigit
      rw [List.singleton_append, scanWhole, if_neg other]
  · rename_i nonzero
    obtain ⟨run, nonempty, each, rfl, again⟩ := scanSomeDigits_run read
    refine ⟨run, nonempty, each, rfl, fun rest' ends => ?_⟩
    rw [← again rest' ends]
    cases run with
    | nil => exact absurd rfl nonempty
    | cons c run =>
      refine scanWhole_other ?_ _
      rintro rfl
      exact nonzero _ rfl

/-- A fraction that was scanned is empty or begins with a point, and is scanned again in front of
anything that goes on with neither a digit nor a point. -/
theorem scanFraction_part {text rest : List Char} {digits : List Nat}
    (read : scanFraction text = .ok (digits, rest)) : ∃ part,
      text = part ++ rest ∧ (∀ c ∈ part.head?, c = '.') ∧
        ∀ rest', (∀ c ∈ rest'.head?, ¬ c.isDigit = true ∧ c ≠ '.') →
          scanFraction (part ++ rest') = .ok (digits, rest') := by
  unfold scanFraction at read
  split at read
  · rename_i left
    obtain ⟨run, _, _, rfl, again⟩ := scanSomeDigits_run read
    refine ⟨'.' :: run, rfl, by simp, fun rest' ends => ?_⟩
    rw [List.cons_append, scanFraction]
    exact again rest' fun c first => (ends c first).1
  · cases read
    refine ⟨[], rfl, by simp, fun rest' ends => ?_⟩
    rw [List.nil_append, scanFraction]
    rintro left rfl
    exact (ends '.' rfl).2 rfl

/-- A sign that was scanned is scanned again in front of a digit. -/
theorem scanSign_part {text rest : List Char} {negative : Bool}
    (read : scanSign text = (negative, rest)) : ∃ part, text = part ++ rest ∧
      ∀ c rest', c.isDigit = true → scanSign (part ++ c :: rest') = (negative, c :: rest') := by
  unfold scanSign at read
  split at read
  · cases read
    exact ⟨['+'], rfl, fun _ _ _ => rfl⟩
  · cases read
    exact ⟨['-'], rfl, fun _ _ _ => rfl⟩
  · cases read
    refine ⟨[], rfl, fun c rest' digit => ?_⟩
    have plus : c ≠ '+' := by rintro rfl; revert digit; decide
    have minus : c ≠ '-' := by rintro rfl; revert digit; decide
    simp [scanSign, plus, minus]

/-- An exponent that was scanned is empty or begins with its letter, and is scanned again in front
of anything that cannot belong to a numeral. -/
theorem scanExponent_part {text rest : List Char} {exponent : Option Int}
    (read : scanExponent text = .ok (exponent, rest)) : ∃ part,
      text = part ++ rest ∧ (∀ c ∈ part.head?, c = 'e' ∨ c = 'E') ∧
        ∀ rest', EndsNumeral rest' → scanExponent (part ++ rest') = .ok (exponent, rest') := by
  unfold scanExponent at read
  split at read
  · rename_i c left
    split at read
    · rename_i letter
      cases signed : scanSign left with
      | mk negative unsigned =>
        rw [signed] at read
        obtain ⟨⟨digits, left'⟩, scanned, done⟩ := Format.bind_eq_ok read
        cases done
        obtain ⟨sign, rfl, resigned⟩ := scanSign_part signed
        obtain ⟨run, nonempty, each, rfl, again⟩ := scanSomeDigits_run scanned
        refine ⟨c :: (sign ++ run), by simp, by simpa using letter, fun rest' ends => ?_⟩
        have rescanned := again rest' fun d first => (ends d first).1
        cases run with
        | nil => exact absurd rfl nonempty
        | cons d run =>
          have resigned := resigned d (run ++ rest') (each d List.mem_cons_self)
          rw [List.cons_append] at rescanned
          simp [scanExponent, letter, resigned, rescanned, bind, Except.bind, pure, Except.pure]
    · cases read
      exact ⟨[], rfl, by simp, fun _ ends => scanExponent_ends ends⟩
  · cases read
    exact ⟨[], rfl, by simp, fun _ ends => scanExponent_ends ends⟩

/-- The numeral of a sign and the text behind it. -/
def scanMagnitude (negative : Bool) (text : List Char) : Except Bool (Numeral × List Char) := do
  let (whole, rest) ← scanWhole text
  let (fraction, rest) ← scanFraction rest
  let (exponent, rest) ← scanExponent rest
  pure (⟨negative, whole, fraction, exponent⟩, rest)

theorem scanNumeral_minus (text : List Char) :
    scanNumeral ('-' :: text) = scanMagnitude true text := rfl

theorem scanNumeral_unsigned {text : List Char} (unsigned : ∀ c ∈ text.head?, c ≠ '-') :
    scanNumeral text = scanMagnitude false text := by
  unfold scanNumeral
  split
  rename_i scanned
  split at scanned
  · exact absurd rfl (unsigned '-' rfl)
  · cases scanned
    rfl

/-- What was taken of a text behind the sign is taken again in front of anything that cannot belong
to a numeral. -/
theorem scanMagnitude_part {text rest : List Char} {negative : Bool} {numeral : Numeral}
    (read : scanMagnitude negative text = .ok (numeral, rest)) : ∃ part, text = part ++ rest ∧
      (∃ c more, part = c :: more ∧ c.isDigit = true) ∧
      ∀ rest', EndsNumeral rest' →
        scanMagnitude negative (part ++ rest') = .ok (numeral, rest') := by
  obtain ⟨⟨whole, behindWhole⟩, scannedWhole, read⟩ := Format.bind_eq_ok read
  obtain ⟨⟨fraction, behindFraction⟩, scannedFraction, read⟩ := Format.bind_eq_ok read
  obtain ⟨⟨exponent, behindExponent⟩, scannedExponent, done⟩ := Format.bind_eq_ok read
  cases done
  obtain ⟨run, nonempty, digits, rfl, wholeAgain⟩ := scanWhole_run scannedWhole
  obtain ⟨point, rfl, begins, fractionAgain⟩ := scanFraction_part scannedFraction
  obtain ⟨letter, rfl, begins', exponentAgain⟩ := scanExponent_part scannedExponent
  refine ⟨run ++ (point ++ letter), by simp, ?_, fun rest' ends => ?_⟩
  · cases run with
    | nil => exact absurd rfl nonempty
    | cons c run => exact ⟨c, _, rfl, digits c List.mem_cons_self⟩
  · have behindPoint : ∀ c ∈ (letter ++ rest').head?, ¬ c.isDigit = true ∧ c ≠ '.' := by
      refine head_append (fun c first => ?_) fun c first => ⟨(ends c first).1, (ends c first).2.1⟩
      rcases begins' c first with rfl | rfl <;> decide
    have behindRun : ∀ c ∈ (point ++ (letter ++ rest')).head?, ¬ c.isDigit = true := by
      refine head_append (fun c first => ?_) fun c first => (behindPoint c first).1
      rw [begins c first]
      decide
    rw [List.append_assoc, List.append_assoc]
    simp only [scanMagnitude, wholeAgain _ behindRun, fractionAgain _ behindPoint,
      exponentAgain _ ends, bind, Except.bind, pure, Except.pure]

/-- A numeral that was scanned is spelled by what was taken of the text. -/
theorem spellsNumeral_of_scanNumeral {text rest : List Char} {numeral : Numeral}
    (read : scanNumeral text = .ok (numeral, rest)) :
    ∃ body, text = body ++ rest ∧ SpellsNumeral numeral body := by
  by_cases signed : ∃ more, text = '-' :: more
  · obtain ⟨more, rfl⟩ := signed
    rw [scanNumeral_minus] at read
    obtain ⟨part, rfl, _, again⟩ := scanMagnitude_part read
    exact ⟨'-' :: part, rfl, fun rest' ends => again rest' ends⟩
  · have unsigned : ∀ c ∈ text.head?, c ≠ '-' := by
      rintro _ first rfl
      obtain ⟨more, rfl⟩ := List.head?_eq_some_iff.1 first
      exact signed ⟨more, rfl⟩
    rw [scanNumeral_unsigned unsigned] at read
    obtain ⟨_, rfl, ⟨c, more, rfl, digit⟩, again⟩ := scanMagnitude_part read
    refine ⟨c :: more, rfl, fun rest' ends => ?_⟩
    have other : ∀ d ∈ (c :: more ++ rest').head?, d ≠ '-' := by
      rintro _ ⟨rfl⟩ rfl
      revert digit
      decide
    rw [scanNumeral_unsigned other]
    exact again rest' ends

/-! ## Words and strings -/

theorem scanWord_eq_ok {word text rest : List Char} (read : scanWord word text = .ok rest) :
    text = word ++ rest := by
  induction word generalizing text with
  | nil =>
    cases text with
    | nil => cases read; rfl
    | cons c text => cases read; rfl
  | cons expected word ih =>
    cases text with
    | nil => cases read
    | cons c text =>
      rw [scanWord] at read
      split at read
      · rename_i same
        rw [same, ih read]
        rfl
      · cases read

/-- A word that can be passed over was spelled to its end. -/
theorem wordDoc_sound {value doc : Doc} {word : String} {text rest : List Char}
    (scanned : wordDoc value word text = (doc, rest)) (sound : doc.skim = .ok ()) :
    doc = value ∧ text = word.toList ++ rest := by
  unfold wordDoc at scanned
  split at scanned
  · rename_i left read
    cases scanned
    exact ⟨rfl, scanWord_eq_ok read⟩
  · cases scanned
    cases sound

theorem scanQuoted_unit {a b c d : Char} {code : Nat} (unit : unit? a b c d = some code)
    (rest : List Char) : scanQuoted ('\\' :: 'u' :: a :: b :: c :: d :: rest) =
      pushPiece (.unit code) (scanQuoted rest) := by
  rw [scanQuoted, unit]

theorem scanQuoted_short {e c : Char} (short : shortEscape? e = some c) (rest : List Char) :
    scanQuoted ('\\' :: e :: rest) = pushPiece (.char c) (scanQuoted rest) := by
  have escape : e = '"' ∨ e = '\\' ∨ e = '/' ∨ e = 'b' ∨ e = 'f' ∨ e = 'n' ∨ e = 'r' ∨ e = 't' := by
    unfold shortEscape? at short
    split at short <;> simp_all
  rcases escape with rfl | rfl | rfl | rfl | rfl | rfl | rfl | rfl <;> cases short <;> rfl

theorem scanQuoted_plain {c : Char} (quote : c ≠ '"') (backslash : c ≠ '\\') (plain : ¬ c < ' ')
    (rest : List Char) : scanQuoted (c :: rest) = pushPiece (.char c) (scanQuoted rest) := by
  rw [scanQuoted, if_neg plain]
  · exact quote
  all_goals intros; exact absurd ‹c = '\\'› backslash

/-- A piece in front of a string that was scanned to its closing quote. -/
theorem spellsQuoted_push (front : List Char) {left rest : List Char} {piece : Piece}
    {quoted : Quoted}
    (step : ∀ text, scanQuoted (front ++ text) = pushPiece piece (scanQuoted text))
    (more : ∀ {quoted : Quoted}, scanQuoted left = (quoted, rest) → quoted.ending = .closed →
      ∃ body, left = body ++ rest ∧ SpellsQuoted quoted body)
    (scanned : scanQuoted (front ++ left) = (quoted, rest)) (closed : quoted.ending = .closed) :
    ∃ body, front ++ left = body ++ rest ∧ SpellsQuoted quoted body := by
  rw [step] at scanned
  cases behind : scanQuoted left with
  | mk inner left' =>
    rw [behind] at scanned
    cases scanned
    obtain ⟨body, rfl, spelled⟩ := more behind closed
    refine ⟨front ++ body, by simp, fun rest' => ?_⟩
    rw [List.append_assoc, step, spelled rest']
    rfl

/-- A quoted string that was scanned to its closing quote is spelled by what was taken of the
text. -/
theorem spellsQuoted_of_scanQuoted {text rest : List Char} {quoted : Quoted}
    (scanned : scanQuoted text = (quoted, rest)) (closed : quoted.ending = .closed) :
    ∃ body, text = body ++ rest ∧ SpellsQuoted quoted body := by
  induction text using scanQuoted.induct generalizing quoted with
  | case1 =>
    cases scanned
    cases closed
  | case2 left =>
    cases scanned
    exact ⟨['"'], rfl, fun _ => rfl⟩
  | case3 =>
    cases scanned
    cases closed
  | case4 a b c d left code unit ih =>
    exact spellsQuoted_push ['\\', 'u', a, b, c, d] (scanQuoted_unit unit) ih scanned
      closed
  | case5 a b c d left unit =>
    rw [scanQuoted, unit] at scanned
    cases scanned
    cases closed
  | case6 left few short =>
    rw [scanQuoted, if_pos short] at scanned
    · cases scanned
      cases closed
    · exact few
  | case7 left few long =>
    rw [scanQuoted, if_neg long] at scanned
    · cases scanned
      cases closed
    · exact few
  | case8 e left _ _ c short ih =>
    exact spellsQuoted_push ['\\', e] (scanQuoted_short short) ih scanned closed
  | case9 e left few other short =>
    rw [scanQuoted, short] at scanned
    · cases scanned
      cases closed
    · exact few
    · exact other
  | case10 c left quote last unit fewUnit escape control =>
    rw [scanQuoted, if_pos control] at scanned
    · cases scanned
      cases closed
    · exact quote
    · exact last
    · exact unit
    · exact fewUnit
    · exact escape
  | case11 c left quote last _ _ escape plain ih =>
    have backslash : c ≠ '\\' := by
      intro same
      cases left with
      | nil => exact last same rfl
      | cons e left => exact escape e left same rfl
    exact spellsQuoted_push [c] (scanQuoted_plain quote backslash plain) ih scanned closed

theorem pushPiece_eq_iff {piece : Piece} {scanned : Quoted × List Char} {quoted : Quoted}
    {rest : List Char} : pushPiece piece scanned = (quoted, rest) ↔
      quoted = ⟨piece :: scanned.1.pieces, scanned.1.ending⟩ ∧ scanned.2 = rest := by
  rw [pushPiece, Prod.mk.injEq, eq_comm]

/-- Something is left of a text behind a quoted string only if the string has its closing quote. -/
theorem closed_of_scanQuoted {text rest : List Char} {quoted : Quoted}
    (scanned : scanQuoted text = (quoted, rest)) (more : rest ≠ []) : quoted.ending = .closed := by
  fun_induction scanQuoted text generalizing quoted with
  | case2 left =>
    cases scanned
    rfl
  | case4 _ _ _ _ left _ _ ih | case8 _ left _ _ _ _ ih | case11 _ left _ _ _ _ _ _ ih =>
    obtain ⟨rfl, same⟩ := pushPiece_eq_iff.1 scanned
    have inner : scanQuoted left = ((scanQuoted left).1, rest) := Prod.ext rfl same
    have closed := ih inner
    exact closed
  | _ =>
    cases scanned
    exact absurd rfl more

theorem scanQuoted_suffix {text rest : List Char} {quoted : Quoted}
    (scanned : scanQuoted text = (quoted, rest)) : rest <:+ text := by
  by_cases none : rest = []
  · rw [none]
    exact List.nil_suffix
  · obtain ⟨body, rfl, _⟩ :=
      spellsQuoted_of_scanQuoted scanned (closed_of_scanQuoted scanned none)
    exact List.suffix_append body rest

end RulesText.Json
