import RulesText.Json.Value

/-!
# Printed JSON

The compact form has no space at all; the laid-out form puts one item or member on a line, two
spaces deeper than its container, and closes an empty container at once. Inside a string only
quotes, backslashes and control characters are escaped.
-/

namespace RulesText.Json

/-- A character inside a printed string. -/
def escapedChar (c : Char) : List Char :=
  if c = '"' ∨ c = '\\' then ['\\', c]
  else if c = '\x08' then ['\\', 'b']
  else if c = '\x0c' then ['\\', 'f']
  else if c = '\n' then ['\\', 'n']
  else if c = '\r' then ['\\', 'r']
  else if c = '\t' then ['\\', 't']
  else if c < ' ' then
    ['\\', 'u', '0', '0', Nat.digitChar (c.toNat / 16), Nat.digitChar (c.toNat % 16)]
  else [c]

/-- A printed string, with its quotes. -/
def printString (text : String) : List Char :=
  '"' :: text.toList.flatMap escapedChar ++ ['"']

mutual

/-- The compact form of a value. -/
def printCompact : Json → List Char
  | .null => ['n', 'u', 'l', 'l']
  | .bool true => ['t', 'r', 'u', 'e']
  | .bool false => ['f', 'a', 'l', 's', 'e']
  | .number n => n.text.toList
  | .string text => printString text
  | .array [] => ['[', ']']
  | .array (item :: items) => '[' :: printCompact item ++ printCompactItems items
  | .object [] => ['\x7b', '\x7d']
  | .object ((name, value) :: members) =>
    '\x7b' :: printString name ++ ':' :: printCompact value ++ printCompactMembers members

/-- The items after the first, and the end of the list. -/
def printCompactItems : List Json → List Char
  | [] => [']']
  | item :: items => ',' :: printCompact item ++ printCompactItems items

/-- The members after the first, and the end of the object. -/
def printCompactMembers : List (String × Json) → List Char
  | [] => ['\x7d']
  | (name, value) :: members =>
    ',' :: printString name ++ ':' :: printCompact value ++ printCompactMembers members

end

/-- A new line at a depth. -/
def newLine (depth : Nat) : List Char :=
  '\n' :: List.replicate (2 * depth) ' '

mutual

/-- The laid-out form of a value inside `depth` containers. -/
def printLines (depth : Nat) : Json → List Char
  | .array (item :: items) =>
    '[' :: newLine (depth + 1) ++ printLines (depth + 1) item ++ printLinesItems depth items
  | .object ((name, value) :: members) =>
    '\x7b' :: newLine (depth + 1) ++ printString name ++ ':' :: ' ' :: printLines (depth + 1) value
      ++ printLinesMembers depth members
  | value => printCompact value

/-- The items after the first, and the end of the list. -/
def printLinesItems (depth : Nat) : List Json → List Char
  | [] => newLine depth ++ [']']
  | item :: items =>
    ',' :: newLine (depth + 1) ++ printLines (depth + 1) item ++ printLinesItems depth items

/-- The members after the first, and the end of the object. -/
def printLinesMembers (depth : Nat) : List (String × Json) → List Char
  | [] => newLine depth ++ ['\x7d']
  | (name, value) :: members =>
    ',' :: newLine (depth + 1) ++ printString name ++ ':' :: ' ' :: printLines (depth + 1) value
      ++ printLinesMembers depth members

end

/-- The text of a value without any space. -/
def compact (value : Json) : String := String.ofList (printCompact value)

/-- The text of a value laid out over lines, without a final line end. -/
def pretty (value : Json) : String := String.ofList (printLines 0 value)

end RulesText.Json
