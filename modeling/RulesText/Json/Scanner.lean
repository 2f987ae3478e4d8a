import RulesText.Json.Document

/-!
# From text to documents

The scanner follows the text as far as it is well formed and puts what it finds at the first
offence into the tree; nothing behind that place is looked at. Every step takes a character, so
the length of the text bounds the number of steps.
-/

namespace RulesText.Json

/-- The four characters that may stand between tokens. -/
def isSpace (c : Char) : Bool :=
  c == ' ' || c == '\n' || c == '\t' || c == '\r'

/-- The text behind the spaces in front of it. -/
def skipSpaces (text : List Char) : List Char := text.dropWhile isSpace

/-- The rest of the text behind the rest of a word. The fault says whether the text ended within
the word. -/
def scanWord : List Char → List Char → Except Bool (List Char)
  | [], text => .ok text
  | _ :: _, [] => .error true
  | expected :: word, c :: text => if c = expected then scanWord word text else .error false

/-- A word that stands for a value, its first letter already read. -/
def wordDoc (value : Doc) (word : String) (text : List Char) : Doc × List Char :=
  match scanWord word.toList text with
  | .ok rest => (value, rest)
  | .error cut => (.broken (.word (value matches .null) cut), [])

/-- A numeral as a value. -/
def numeralDoc (text : List Char) : Doc × List Char :=
  match scanNumeral text with
  | .ok (numeral, rest) => (.number numeral, rest)
  | .error cut => (.broken (.numeral cut), [])

mutual

/-- The value in front of a text, and the rest of the text behind it. -/
def scanValue : Nat → List Char → Doc × List Char
  | 0, _ => (.broken .absent, [])
  | fuel + 1, text =>
    match skipSpaces text with
    | [] => (.broken .absent, [])
    | 'n' :: rest => wordDoc .null "ull" rest
    | 't' :: rest => wordDoc (.bool true) "rue" rest
    | 'f' :: rest => wordDoc (.bool false) "alse" rest
    | '"' :: rest =>
      let (quoted, rest) := scanQuoted rest
      (.string quoted, rest)
    | '[' :: rest =>
      let ((items, ending), rest) := scanItems fuel rest
      (.array items ending, rest)
    | '\x7b' :: rest =>
      let ((members, ending), rest) := scanMembers fuel rest
      (.object members ending, rest)
    | c :: rest =>
      if c = '-' ∨ c.isDigit then numeralDoc (c :: rest) else (.broken .stray, [])

/-- The items behind an opening bracket. -/
def scanItems : Nat → List Char → (List Doc × ListEnd) × List Char
  | 0, _ => (([], .unfinished), [])
  | fuel + 1, text =>
    match skipSpaces text with
    | [] => (([], .unfinished), [])
    | ']' :: rest => (([], .closed), rest)
    | text => scanItem fuel text

/-- An item, and those behind it. -/
def scanItem : Nat → List Char → (List Doc × ListEnd) × List Char
  | 0, _ => (([], .unfinished), [])
  | fuel + 1, text =>
    let (item, rest) := scanValue fuel text
    let ((items, ending), rest) := scanNextItem fuel rest
    ((item :: items, ending), rest)

/-- What follows an item: the end of the list, or a comma and an item. -/
def scanNextItem : Nat → List Char → (List Doc × ListEnd) × List Char
  | 0, _ => (([], .unfinished), [])
  | fuel + 1, text =>
    match skipSpaces text with
    | [] => (([], .unfinished), [])
    | ']' :: rest => (([], .closed), rest)
    | ',' :: rest =>
      match skipSpaces rest with
      | ']' :: _ => (([], .trailingComma), [])
      | rest => scanItem fuel rest
    | _ => (([], .unseparated), [])

/-- The members behind an opening brace. -/
def scanMembers : Nat → List Char → (List (Quoted × Doc) × ObjectEnd) × List Char
  | 0, _ => (([], .unfinished), [])
  | fuel + 1, text =>
    match skipSpaces text with
    | [] => (([], .unfinished), [])
    | '\x7d' :: rest => (([], .closed), rest)
    | '"' :: rest => scanMember fuel rest
    | _ => (([], .notKey), [])

/-- A member behind the quote that opens its key, and those behind it. -/
def scanMember : Nat → List Char → (List (Quoted × Doc) × ObjectEnd) × List Char
  | 0, _ => (([], .unfinished), [])
  | fuel + 1, text =>
    let (key, rest) := scanQuoted text
    match skipSpaces rest with
    | [] => (([], .loneKey key (.unfinished .object)), [])
    | ':' :: rest =>
      let (value, rest) := scanValue fuel rest
      let ((members, ending), rest) := scanNextMember fuel rest
      (((key, value) :: members, ending), rest)
    | _ => (([], .loneKey key (.malformed .noColon)), [])

/-- What follows a member: the end of the object, or a comma and a member. -/
def scanNextMember : Nat → List Char → (List (Quoted × Doc) × ObjectEnd) × List Char
  | 0, _ => (([], .unfinished), [])
  | fuel + 1, text =>
    match skipSpaces text with
    | [] => (([], .unfinished), [])
    | '\x7d' :: rest => (([], .closed), rest)
    | ',' :: rest =>
      match skipSpaces rest with
      | [] => (([], .cutAfterComma), [])
      | '\x7d' :: _ => (([], .trailingComma), [])
      | '"' :: rest => scanMember fuel rest
      | _ => (([], .notKey), [])
    | _ => (([], .unseparated), [])

end

/-- The document at the front of a text, and the rest of the text. -/
def Doc.scan (text : String) : Doc × List Char :=
  let (doc, rest) := scanValue (3 * text.length + 3) text.toList
  (doc.limitDepth maxDepth, rest)

end RulesText.Json
