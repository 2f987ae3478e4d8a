import RulesText.Json.Printer
import RulesText.Json.Scanner

/-!
# Printed tokens are scanned again

What the scanner makes of the two kinds of token that hold data: an integer in decimal, and a
string between quotes. Whatever text follows is left alone, provided that it could not belong to
the token.
-/

namespace RulesText.Json

/-! ## Integers -/

/-- The numeral of an integer: the sign and the decimal digits. -/
def Numeral.ofInt (value : Int) : Numeral :=
  ⟨decide (value < 0), (Nat.toDigits 10 value.natAbs).map digit, [], none⟩

/-- Whether a numeral ends in front of a text: what stands there could not belong to it. -/
def EndsNumeral (rest : List Char) : Prop :=
  ∀ c ∈ rest.head?, ¬ c.isDigit ∧ c ≠ '.' ∧ c ≠ 'e' ∧ c ≠ 'E'

theorem endsNumeral_nil : EndsNumeral [] := by
  intro c member
  simp at member

theorem EndsNumeral.no_digit {rest : List Char} (ends : EndsNumeral rest) :
    rest.takeWhile Char.isDigit = [] ∧ rest.dropWhile Char.isDigit = rest := by
  cases rest with
  | nil => exact ⟨rfl, rfl⟩
  | cons c rest =>
    have other : ¬ c.isDigit := (ends c rfl).1
    exact ⟨by simp [other], by simp [other]⟩

theorem isDigit_of_mem_toDigits {n : Nat} {c : Char} (member : c ∈ Nat.toDigits 10 n) :
    c.isDigit = true :=
  Nat.isDigit_of_mem_toDigits (by decide) (by decide) member

theorem scanDigits_toDigits (n : Nat) {rest : List Char} (ends : EndsNumeral rest) :
    scanDigits (Nat.toDigits 10 n ++ rest) = ((Nat.toDigits 10 n).map digit, rest) := by
  have digits : ∀ c ∈ Nat.toDigits 10 n, c.isDigit = true := fun c => isDigit_of_mem_toDigits
  unfold scanDigits
  rw [List.takeWhile_append_of_pos digits, List.dropWhile_append_of_pos digits,
    ends.no_digit.1, ends.no_digit.2, List.append_nil]

theorem scanSomeDigits_toDigits (n : Nat) {rest : List Char} (ends : EndsNumeral rest) :
    scanSomeDigits (Nat.toDigits 10 n ++ rest) = .ok ((Nat.toDigits 10 n).map digit, rest) := by
  unfold scanSomeDigits
  rw [scanDigits_toDigits n ends]
  cases digits : Nat.toDigits 10 n with
  | nil => exact absurd digits Nat.toDigits_ne_nil
  | cons c more => rfl

/-- Only the digits of zero begin with a zero. -/
theorem toDigits_head {n : Nat} (positive : 0 < n) : (Nat.toDigits 10 n).head? ≠ some '0' := by
  induction n using Nat.strongRecOn with
  | ind n ih =>
    by_cases small : n < 10
    · have leading : ∀ n, n < 10 → 0 < n → n.digitChar ≠ '0' := by decide
      rw [Nat.toDigits_of_lt_base small]
      simpa using leading n small positive
    · have shorter := ih (n / 10) (by omega) (by omega)
      rw [Nat.toDigits_of_base_le (by decide) (by omega)]
      cases digits : Nat.toDigits 10 (n / 10) with
      | nil => exact absurd digits Nat.toDigits_ne_nil
      | cons c more => simpa [digits] using shorter

theorem scanWhole_toDigits (n : Nat) {rest : List Char} (ends : EndsNumeral rest) :
    scanWhole (Nat.toDigits 10 n ++ rest) = .ok ((Nat.toDigits 10 n).map digit, rest) := by
  by_cases zero : n = 0
  · subst zero
    have other : rest.head?.any Char.isDigit = false := by
      cases rest with
      | nil => rfl
      | cons c rest => simpa using (ends c rfl).1
    rw [Nat.toDigits_zero]
    simp [scanWhole, other, digit]
  · have leading := toDigits_head (Nat.pos_of_ne_zero zero)
    rw [← scanSomeDigits_toDigits n ends]
    cases digits : Nat.toDigits 10 n with
    | nil => exact absurd digits Nat.toDigits_ne_nil
    | cons c more =>
      have other : c ≠ '0' := by simpa [digits] using leading
      rw [List.cons_append, scanWhole]
      simpa using other

theorem scanFraction_ends {rest : List Char} (ends : EndsNumeral rest) :
    scanFraction rest = .ok ([], rest) := by
  cases rest with
  | nil => rfl
  | cons c rest =>
    have other : c ≠ '.' := (ends c rfl).2.1
    rw [scanFraction]
    simpa using other

theorem scanExponent_ends {rest : List Char} (ends : EndsNumeral rest) :
    scanExponent rest = .ok (none, rest) := by
  cases rest with
  | nil => rfl
  | cons c rest =>
    have other := (ends c rfl).2.2
    simp [scanExponent, other]

theorem text_int (value : Int) :
    (Number.int value).text.toList =
      (if value < 0 then ['-'] else []) ++ Nat.toDigits 10 value.natAbs := by
  cases value with
  | ofNat n =>
    have sign : ¬ Int.ofNat n < 0 := by simp
    rw [if_neg sign]
    simp [Number.text, toString, Int.repr]
  | negSucc n =>
    have sign : Int.negSucc n < 0 := Int.negSucc_lt_zero n
    rw [if_pos sign]
    simp [Number.text, toString, Int.repr]

/-- A printed integer is scanned as its numeral. -/
theorem scanNumeral_int (value : Int) {rest : List Char} (ends : EndsNumeral rest) :
    scanNumeral ((Number.int value).text.toList ++ rest) = .ok (Numeral.ofInt value, rest) := by
  rw [text_int]
  have whole := scanWhole_toDigits value.natAbs ends
  by_cases sign : value < 0
  · simp [scanNumeral, sign, whole, scanFraction_ends ends, scanExponent_ends ends, Numeral.ofInt,
      bind, Except.bind, pure, Except.pure]
  · cases digits : Nat.toDigits 10 value.natAbs with
    | nil => exact absurd digits Nat.toDigits_ne_nil
    | cons c more =>
      have isDigit : c.isDigit := isDigit_of_mem_toDigits (digits ▸ List.mem_cons_self)
      have unsigned : c ≠ '-' := by rintro rfl; revert isDigit; decide
      rw [digits, List.cons_append] at whole
      simp [scanNumeral, sign, unsigned, whole, digits, scanFraction_ends ends,
        scanExponent_ends ends, Numeral.ofInt, bind, Except.bind, pure, Except.pure]

theorem le_ofDigits (value : Nat) (digits : List Nat) : value ≤ ofDigits value digits := by
  induction digits generalizing value with
  | nil => exact Nat.le_refl value
  | cons d digits ih =>
    have grown : 10 * value + d ≤ ofDigits value (d :: digits) := ih (10 * value + d)
    omega

theorem absorb_eq {value : Nat} {digits : List Nat}
    (small : ofDigits value digits < UInt64.size) :
    absorb value digits = (ofDigits value digits, digits.length) := by
  induction digits generalizing value with
  | nil => rfl
  | cons d digits ih =>
    have next : 10 * value + d < UInt64.size :=
      Nat.lt_of_le_of_lt (le_ofDigits (10 * value + d) digits) small
    have taken : absorb (10 * value + d) digits = (ofDigits value (d :: digits), digits.length) :=
      ih small
    rw [absorb, if_pos next, taken]
    rfl

theorem ofDigits_toDigits (n : Nat) : ofDigits 0 ((Nat.toDigits 10 n).map digit) = n := by
  have read : Nat.ofDigitChars 10 (Nat.toDigits 10 n) 0 = n :=
    Nat.ofDigitChars_toDigits (by decide) (by decide)
  rw [Nat.ofDigitChars_eq_foldl] at read
  rw [ofDigits, List.foldl_map]
  exact read

/-- The integers that a numeral can stand for: those of the 64-bit range, signed or unsigned. -/
def InRange (value : Int) : Prop := -9223372036854775808 ≤ value ∧ value < 18446744073709551616

/-- The numeral of an integer stands for that integer. -/
theorem value_ofInt {value : Int} (inside : InRange value) :
    (Numeral.ofInt value).value = .ok (.int value) := by
  have size : UInt64.size = 18446744073709551616 := rfl
  have absorbed : absorb 0 ((Nat.toDigits 10 value.natAbs).map digit) =
      (value.natAbs, (Nat.toDigits 10 value.natAbs).length) := by
    have small : ofDigits 0 ((Nat.toDigits 10 value.natAbs).map digit) < UInt64.size := by
      rw [ofDigits_toDigits, size]
      unfold InRange at inside
      omega
    rw [absorb_eq small, ofDigits_toDigits, List.length_map]
  unfold Numeral.value Numeral.ofInt
  simp only [absorbed, List.length_map, Nat.sub_self, true_and, decide_eq_false_iff_not]
  unfold InRange at inside
  by_cases sign : value < 0
  · rw [if_neg (by simpa using sign), if_pos (by omega)]
    congr 2
    omega
  · rw [if_pos sign]
    congr 2
    omega

/-! ## Strings -/

/-- The piece that a character is printed as: an escape of its number, or the character itself,
which may have a short escape. -/
def printedPiece (c : Char) : Piece :=
  if c < ' ' ∧ c ∉ ['\x08', '\x0c', '\n', '\r', '\t'] then .unit c.toNat else .char c

/-- The quoted string that a text is printed as. -/
def Quoted.ofText (text : String) : Quoted := ⟨text.toList.map printedPiece, .closed⟩

/-- The numeric escape of a control character. -/
theorem unit?_control {c : Char} (control : c < ' ') :
    unit? '0' '0' (Nat.digitChar (c.toNat / 16)) (Nat.digitChar (c.toNat % 16)) =
      some c.toNat := by
  have all : ∀ n, n < 32 →
      unit? '0' '0' (Nat.digitChar (n / 16)) (Nat.digitChar (n % 16)) = some n := by decide
  exact all c.toNat control

theorem scanQuoted_escapedChar (c : Char) (rest : List Char) :
    scanQuoted (escapedChar c ++ rest) = pushPiece (printedPiece c) (scanQuoted rest) := by
  by_cases short : c ∈ ['"', '\\', '\x08', '\x0c', '\n', '\r', '\t']
  · simp only [List.mem_cons, List.not_mem_nil, or_false] at short
    rcases short with rfl | rfl | rfl | rfl | rfl | rfl | rfl <;> rfl
  · simp only [List.mem_cons, List.not_mem_nil, or_false, not_or] at short
    obtain ⟨quote, backslash, backspace, feed, line, carriage, tab⟩ := short
    by_cases control : c < ' '
    · have printed : escapedChar c = ['\\', 'u', '0', '0', Nat.digitChar (c.toNat / 16),
          Nat.digitChar (c.toNat % 16)] := by
        simp [escapedChar, quote, backslash, backspace, feed, line, carriage, tab, control]
      have piece : printedPiece c = .unit c.toNat := by
        simp [printedPiece, control, backspace, feed, line, carriage, tab]
      rw [printed, piece]
      simp only [List.cons_append, List.nil_append, scanQuoted, unit?_control control]
    · have printed : escapedChar c = [c] := by
        simp [escapedChar, quote, backslash, backspace, feed, line, carriage, tab, control]
      have piece : printedPiece c = .char c := by
        simp [printedPiece, control]
      rw [printed, piece, List.cons_append, List.nil_append, scanQuoted, if_neg control]
      · exact fun same => absurd same quote
      all_goals intros; exact absurd ‹c = '\\'› backslash

/-- A printed string is scanned, behind its opening quote, as the string of its text. -/
theorem scanQuoted_printed (text : String) (rest : List Char) :
    scanQuoted (text.toList.flatMap escapedChar ++ '"' :: rest) = (Quoted.ofText text, rest) := by
  unfold Quoted.ofText
  induction text.toList with
  | nil => rfl
  | cons c more ih =>
    rw [List.flatMap_cons, List.append_assoc, scanQuoted_escapedChar, ih]
    rfl

/-- A unit that is no surrogate is decoded by itself. -/
theorem decode_unit {code : Nat} (low : isLow code = false) (high : isHigh code = false)
    (ending : QuoteEnd) (rest : List Piece) :
    decode ending (.unit code :: rest) = (Char.ofNat code :: ·) <$> decode ending rest := by
  have alone : ∀ more : Except Fault (List Char),
      (do return Char.ofNat code :: (← more)) = (Char.ofNat code :: ·) <$> more := by
    intro more
    simp
  rcases rest with _ | ⟨piece, rest⟩
  · simp [decode, low, high, alone]
  · cases piece <;> simp only [decode, low, high, alone] <;> rfl

theorem decode_printed (text : List Char) :
    decode .closed (text.map printedPiece) = .ok text := by
  induction text with
  | nil => rfl
  | cons c more ih =>
    rw [List.map_cons, printedPiece]
    by_cases control : c < ' ' ∧ c ∉ ['\x08', '\x0c', '\n', '\r', '\t']
    · have below : c.toNat < 32 := control.1
      have low : isLow c.toNat = false := by simp [isLow]; omega
      have high : isHigh c.toNat = false := by simp [isHigh]; omega
      rw [if_pos control, decode_unit low high, ih, Char.ofNat_toNat]
      rfl
    · rw [if_neg control, decode, ih]
      rfl

/-- The quoted string of a text stands for that text. -/
@[simp] theorem Quoted.value_ofText (text : String) : (Quoted.ofText text).value = .ok text := by
  unfold Quoted.value Quoted.ofText
  rw [decode_printed]
  simp [Except.map]

theorem Quoted.is_ofText (text name : String) : (Quoted.ofText text).is name = (text == name) := by
  simp [Quoted.is]

end RulesText.Json
