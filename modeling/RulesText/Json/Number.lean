import RulesText.Decimal.Shortest

/-!
# Numbers of a JSON text

A number is an integer of the 64-bit range, signed or unsigned, or else a binary64 number.
-/

namespace RulesText.Json
open RulesText.Decimal

/-- The value of a numeral. -/
inductive Number where
  | int (value : Int)
  | float (negative : Bool) (magnitude : Binary64)
  deriving DecidableEq, Repr

/-- An integer in decimal, a binary64 number by the shortest decimal that reads back. -/
def Number.text : Number → String
  | .int value => toString value
  | .float negative magnitude => (if negative then "-" else "") ++ magnitude.shortest.text

end RulesText.Json
