import RulesText.Text.VisibleTable

/-!
# Text quoted in a diagnostic

A quotation stands between double quotes and shows every visible character as it is. Quotes,
backslashes and the common control characters have short escapes; every other hidden character is
written by its code point, as in `\u{200b}`.
-/

namespace RulesText.Text

/-- Whether a diagnostic shows the character as it is. -/
def isVisible (c : Char) : Bool :=
  (visibilityChanges.takeWhile (· ≤ c.toNat)).length % 2 == 0

/-- A character inside a quotation. -/
def quotedChar (c : Char) : List Char :=
  if c = '"' ∨ c = '\\' then ['\\', c]
  else if c = '\t' then ['\\', 't']
  else if c = '\n' then ['\\', 'n']
  else if c = '\r' then ['\\', 'r']
  else if c = '\x00' then ['\\', '0']
  else if isVisible c then [c]
  else ['\\', 'u', '\x7b'] ++ Nat.toDigits 16 c.toNat ++ ['\x7d']

/-- A text between double quotes, fit for one line. -/
def quotation (text : String) : String :=
  String.ofList ('"' :: text.toList.flatMap quotedChar ++ ['"'])

/-- A word between backquotes, as it is. -/
def ticked (word : String) : String := "`" ++ word ++ "`"

end RulesText.Text
