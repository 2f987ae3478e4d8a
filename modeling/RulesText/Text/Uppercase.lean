import RulesText.Text.UppercaseTable

/-!
# Capitalized text

Only the first character of a text changes, and it becomes its full uppercase, which may be more
than one character.
-/

namespace RulesText.Text

/-- The uppercase of a code point that lies in a run. -/
def CaseRun.upperOf? (run : CaseRun) (code : Nat) : Option Nat :=
  if run.first ≤ code ∧ code ≤ run.last ∧ (code - run.first) % run.step = 0 then
    some (run.upper + (code - run.first))
  else none

/-- The code points of the uppercase of a code point. -/
def uppercaseCodes (code : Nat) : List Nat :=
  match caseExpansions.lookup code with
  | some codes => codes
  | none => [(caseRuns.findSome? (·.upperOf? code)).getD code]

/-- The uppercase of a character. -/
def uppercase (c : Char) : List Char :=
  (uppercaseCodes c.toNat).map Char.ofNat

/-- The text with its first character in uppercase. -/
def capitalize (text : String) : String :=
  match text.toList with
  | [] => ""
  | c :: rest => String.ofList (uppercase c ++ rest)

end RulesText.Text
