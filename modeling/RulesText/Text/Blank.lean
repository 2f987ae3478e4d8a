/-!
# Blank characters and words

A blank is a character of the White_Space property. The words of a text are its maximal runs of
other characters, and collapsing a text leaves those words with one space between neighbours.
-/

namespace RulesText.Text

/-- The 25 characters of the White_Space property. -/
def isBlank (c : Char) : Bool :=
  (9 ≤ c.toNat && c.toNat ≤ 13) || c.toNat == 0x20 || c.toNat == 0x85 || c.toNat == 0xA0
    || c.toNat == 0x1680 || (0x2000 ≤ c.toNat && c.toNat ≤ 0x200A) || c.toNat == 0x2028
    || c.toNat == 0x2029 || c.toNat == 0x202F || c.toNat == 0x205F || c.toNat == 0x3000

/-- The maximal runs of characters that are not blank, in order. -/
def words (text : List Char) : List (List Char) :=
  (text.splitOnP isBlank).filter (!·.isEmpty)

/-- The words of a text with one space between neighbours, and nothing around them. -/
def collapse (text : String) : String :=
  String.ofList ([' '].intercalate (words text.toList))

/-- Fragments put one after the other as a sentence; an empty fragment leaves no trace. -/
def sentence (fragments : List String) : String :=
  collapse (" ".intercalate fragments)

end RulesText.Text
