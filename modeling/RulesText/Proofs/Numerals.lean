import RulesText.Proofs.Words
import RulesText.Text.Series

/-!
# Numbers as words

A number in decimal is a word, it is told from every other number, and no word with a letter in it
is taken for one.
-/

namespace RulesText.Text

theorem isBlank_of_isDigit {c : Char} (digit : c.isDigit = true) : isBlank c = false := by
  have code : 48 ≤ c.toNat ∧ c.toNat ≤ 57 := Char.isDigit_iff_toNat.1 digit
  simp [isBlank]
  omega

theorem toDigits_injective : Function.Injective (Nat.toDigits 10) :=
  Function.LeftInverse.injective (g := fun digits => Nat.ofDigitChars 10 digits 0)
    fun _ => Nat.ofDigitChars_ten_toDigits

/-- A number in decimal is a word. -/
theorem solid_toDigits (n : Nat) : Solid (Nat.toDigits 10 n) :=
  ⟨Nat.toDigits_ne_nil, fun _ member =>
    isBlank_of_isDigit (Nat.isDigit_of_mem_toDigits (by decide) (by decide) member)⟩

theorem toList_numeral (n : UInt32) : (numeral n).toList = Nat.toDigits 10 n.toNat := by
  simp [numeral]

@[simp] theorem words_numeral (n : UInt32) :
    words (numeral n).toList = [(numeral n).toList] := by
  rw [toList_numeral]
  exact words_of_solid (solid_toDigits n.toNat)

@[simp] theorem numeral_inj {n m : UInt32} : (numeral n).toList = (numeral m).toList ↔ n = m := by
  rw [toList_numeral, toList_numeral, toDigits_injective.eq_iff, UInt32.toNat_inj]

/-- A word with a character that is no digit is not a number. -/
theorem numeral_ne {n : UInt32} {word : List Char} {c : Char} (inside : c ∈ word)
    (letter : c.isDigit = false) : (numeral n).toList ≠ word := by
  rintro rfl
  rw [toList_numeral] at inside
  rw [Nat.isDigit_of_mem_toDigits (by decide) (by decide) inside] at letter
  cases letter

@[simp] theorem words_counted (n : UInt32) (one many : String) :
    words (counted n one many).toList =
      (numeral n).toList :: words (if n = 1 then one else many).toList := by
  rw [counted, words_append_space, words_numeral]
  rfl

/-- A number behind a verb and a blank, and in front of another blank, is the second word. -/
theorem words_verb_numeral {front back verb : List Char} {n : UInt32}
    (only : words front = [verb]) (opens : front.getLast? = some ' ')
    (ends : back.head? = some ' ') :
    words (front ++ ((numeral n).toList ++ back)) =
      verb :: (numeral n).toList :: words back := by
  have blank : ∀ c ∈ front.getLast?, isBlank c = true := by
    rw [opens]
    rintro _ ⟨rfl⟩
    decide
  obtain ⟨rest, rfl⟩ := List.head?_eq_some_iff.1 ends
  rw [words_append_of_last blank, words_append_blank (by decide), words_numeral,
    words_cons_blank (by decide), only]
  rfl

end RulesText.Text
