import RulesText.Json.Number
import RulesText.Text.Quotation

/-!
# Why a text is not read

Three kinds of fault: the text ends too early, the text is not JSON, or the JSON does not have the
shape that is asked for. A fault holds its cause, and `Fault.message` is its one wording.
-/

namespace RulesText.Json
open RulesText.Text

/-- What was still open when the text ended. -/
inductive Unfinished where
  | value
  | object
  | list
  | string
  deriving DecidableEq, Repr

/-- The ways in which a text is not JSON. -/
inductive Malformed where
  | noValue
  | misspeltWord
  | noColon
  | unseparatedMembers
  | unseparatedItems
  | trailingComma
  | trailingText
  | keyNotString
  | badNumeral
  | numberOutOfRange
  | badEscape
  | brokenPair
  | loneSurrogate
  | controlCharacter
  | nestedTooDeep
  deriving DecidableEq, Repr

/-- A value, as a mismatch names it: containers by their kind alone. -/
inductive Found where
  | null
  | bool (value : Bool)
  | number (value : Number)
  | string (text : String)
  | list
  | object
  deriving DecidableEq, Repr

/-- The ways in which a value does not have the shape asked for. -/
inductive Mismatch where
  | wrongType (found : Found) (expected : String)
  | wrongValue (found : Found) (expected : String)
  | wrongLength (length : Nat) (expected : String)
  | unknownTag (tag : String) (known : List String)
  | unknownMember (name : String) (known : List String)
  | missingMember (name : String)
  | repeatedMember (name : String)
  | noAlternative (type : String)
  | unknownAmount (noun : String) (word : String)
  deriving DecidableEq, Repr

/-- A reason why a text is not read. -/
inductive Fault where
  | unfinished (inside : Unfinished)
  | malformed (how : Malformed)
  | mismatch (how : Mismatch)
  deriving DecidableEq, Repr

/-- The name of what was still open. -/
def Unfinished.text : Unfinished → String
  | .value => "a value"
  | .object => "an object"
  | .list => "a list"
  | .string => "a string"

/-- The wording of a text that is not JSON. -/
def Malformed.message : Malformed → String
  | .noValue => "expected value"
  | .misspeltWord => "expected ident"
  | .noColon => "expected `:`"
  | .unseparatedMembers => "expected `,` or `\x7d`"
  | .unseparatedItems => "expected `,` or `]`"
  | .trailingComma => "trailing comma"
  | .trailingText => "trailing characters"
  | .keyNotString => "key must be a string"
  | .badNumeral => "invalid number"
  | .numberOutOfRange => "number out of range"
  | .badEscape => "invalid escape"
  | .brokenPair => "unexpected end of hex escape"
  | .loneSurrogate => "lone leading surrogate in hex escape"
  | .controlCharacter => "control character (\\u0000-\\u001F) found while parsing a string"
  | .nestedTooDeep => "recursion limit exceeded"

/-- A value, as a message names it. -/
def Found.text : Found → String
  | .null => "null"
  | .bool value => "boolean " ++ ticked (toString value)
  | .number (.int value) => "integer " ++ ticked (Number.int value).text
  | .number value => "floating point " ++ ticked value.text
  | .string text => "string " ++ quotation text
  | .list => "sequence"
  | .object => "map"

/-- The words that would have done. -/
def expectedOneOf : List String → String
  | [] => "there are no fields"
  | [word] => "expected " ++ ticked word
  | [first, second] => "expected " ++ ticked first ++ " or " ++ ticked second
  | words => "expected one of " ++ ", ".intercalate (words.map ticked)

/-- The wording of a value of another shape. -/
def Mismatch.message : Mismatch → String
  | .wrongType found expected => "invalid type: " ++ found.text ++ ", expected " ++ expected
  | .wrongValue found expected => "invalid value: " ++ found.text ++ ", expected " ++ expected
  | .wrongLength length expected =>
    "invalid length " ++ toString length ++ ", expected " ++ expected
  | .unknownTag tag known => "unknown variant " ++ ticked tag ++ ", " ++ expectedOneOf known
  | .unknownMember name known => "unknown field " ++ ticked name ++ ", " ++ expectedOneOf known
  | .missingMember name => "missing field " ++ ticked name
  | .repeatedMember name => "duplicate field " ++ ticked name
  | .noAlternative type => "data did not match any variant of untagged enum " ++ type
  | .unknownAmount noun word => "unknown " ++ noun ++ " amount " ++ ticked word

/-- The wording of a fault. -/
def Fault.message : Fault → String
  | .unfinished inside => "EOF while parsing " ++ inside.text
  | .malformed how => how.message
  | .mismatch how => how.message

end RulesText.Json
