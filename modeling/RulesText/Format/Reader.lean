import RulesText.Json.Scanner

/-!
# Readers

A reader takes a document for a value of some type, or answers the first fault in the order of the
text. The same reader serves a value that stands in the text and one that was put into a buffer:
what is buffered has been checked as a whole before it is read.
-/

namespace RulesText.Format
open RulesText.Json

/-- Where a document is read from. -/
inductive Source where
  | text
  | buffer
  deriving DecidableEq, Repr

/-- Takes a document for a value. -/
abbrev Reader (α : Type) := Source → Doc → Except Fault α

/-- A fault of the text itself. -/
def malformed {α : Type} (how : Malformed) : Except Fault α := .error (.malformed how)

/-- A fault of shape. -/
def mismatch {α : Type} (how : Mismatch) : Except Fault α := .error (.mismatch how)

/-! ## Scalars -/

/-- The integer that a document is, if it is one from `low` to `high`. -/
def integer (low high : Int) (type : String) (doc : Doc) : Except Fault Int :=
  match doc with
  | .number numeral => do
    match ← numeral.value with
    | .int value =>
      if low ≤ value ∧ value ≤ high then pure value
      else mismatch (.wrongValue (.number (.int value)) type)
    | value => mismatch (.wrongType (.number value) type)
  | _ => doc.mismatch type

/-- An unsigned 32-bit integer. -/
def uint32 : Reader UInt32 := fun _ doc =>
  return UInt32.ofNat (← integer 0 4294967295 "u32" doc).toNat

/-- A signed 32-bit integer. -/
def int32 : Reader Int32 := fun _ doc =>
  return Int32.ofInt (← integer (-2147483648) 2147483647 "i32" doc)

/-- A truth value. -/
def boolean : Reader Bool := fun _ doc =>
  match doc with
  | .bool value => pure value
  | _ => doc.mismatch "a boolean"

/-- A text. -/
def string : Reader String := fun _ doc =>
  match doc with
  | .string quoted => quoted.value
  | _ => doc.mismatch "a string"

/-! ## Compounds -/

/-- A value that may also be null. A misspelt null is a fault of its own. -/
def nullable {α : Type} (read : Reader α) : Reader (Option α) := fun source doc =>
  match doc with
  | .null => pure none
  | .broken (.word true cut) => .error (Breakage.word true cut).fault
  | _ => return some (← read source doc)

/-- A list of values. -/
def list {α : Type} (read : Reader α) : Reader (List α) := fun source doc =>
  match doc with
  | .array items ending => do
    let values ← items.mapM (read source)
    ending.check
    pure values
  | .deep (.array _ _) => malformed .nestedTooDeep
  | _ => doc.mismatch "a sequence"

/-! ## Whole texts -/

/-- Takes a whole text for a value. Only when that succeeds does it matter what follows. -/
def Reader.ofText {α : Type} (read : Reader α) (text : String) : Except Fault α := do
  let (doc, rest) := Doc.scan text
  let value ← read .text doc
  if rest.all isSpace then pure value else malformed .trailingText

end RulesText.Format
