/-!
# Lists in English

Three ways of writing a list: clauses take a comma before their last `and`, lists of nouns joined
by `and` or by `or` do not. A list of two has no comma in any of them.
-/

namespace RulesText.Text

/-- Items with a comma between neighbours, and `last` instead of it before the last one. -/
def series (last : String) : List String → String
  | [] => ""
  | [item] => item
  | [item, final] => item ++ last ++ final
  | item :: rest => item ++ ", " ++ series last rest

/-- The clauses of a sentence: `a`, `a and b`, `a, b, and c`. -/
def clauses : List String → String
  | [first, second] => first ++ " and " ++ second
  | items => series ", and " items

/-- Nouns that hold together: `a`, `a and b`, `a, b and c`. -/
def conjunction (items : List String) : String := series " and " items

/-- Nouns of which each will do: `a`, `a or b`, `a, b or c`. -/
def disjunction (items : List String) : String := series " or " items

/-- A number in decimal. -/
def numeral (n : UInt32) : String := toString n.toNat

/-- A number and the noun that agrees with it: `1 card`, `2 cards`, `0 cards`. -/
def counted (count : UInt32) (one many : String) : String :=
  numeral count ++ " " ++ (if count = 1 then one else many)

end RulesText.Text
