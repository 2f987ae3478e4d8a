import RulesText.Json.Numeral
import RulesText.Json.Quoted

/-!
# Documents

A document is the tree of a text that may break off or be at fault anywhere: every fault stays at
its place in the tree, so a reader that walks the tree from left to right meets the faults in the
order of the text. Two walks are defined here. `Doc.check` reads a value completely, and
`Doc.skim` passes over one that nobody asks for: it minds neither the range of numbers, nor the
pairing of surrogates, nor the depth of nesting.
-/

namespace RulesText.Json

/-- What stands where no value can be read. A numeral or a word may be cut off by the end of the
text. -/
inductive Breakage where
  | absent
  | stray
  | word (null : Bool) (cut : Bool)
  | numeral (cut : Bool)
  deriving DecidableEq, Repr

/-- How a list ends. -/
inductive ListEnd where
  | closed
  | unfinished
  | unseparated
  | trailingComma
  deriving DecidableEq, Repr

/-- How an object ends: among others at something that is not a key, or at a key without a value. -/
inductive ObjectEnd where
  | closed
  | unfinished
  | unseparated
  | trailingComma
  | cutAfterComma
  | notKey
  | loneKey (key : Quoted) (fault : Fault)

/-- A value as it stands in a text, with the faults in it. A container nested too deep is marked. -/
inductive Doc where
  | null
  | bool (value : Bool)
  | number (numeral : Numeral)
  | string (quoted : Quoted)
  | array (items : List Doc) (ending : ListEnd)
  | object (members : List (Quoted × Doc)) (ending : ObjectEnd)
  | deep (container : Doc)
  | broken (breakage : Breakage)

/-! ## Faults of the parts -/

/-- The fault where a value is read. -/
def Breakage.fault : Breakage → Fault
  | .absent | .word _ true | .numeral true => .unfinished .value
  | .stray => .malformed .noValue
  | .word _ false => .malformed .misspeltWord
  | .numeral false => .malformed .badNumeral

/-- The fault where a value is passed over: a numeral that is cut off is a bad one. -/
def Breakage.skimFault : Breakage → Fault
  | .numeral _ => .malformed .badNumeral
  | other => other.fault

/-- Whether the list ends as it should. -/
def ListEnd.check : ListEnd → Except Fault Unit
  | .closed => .ok ()
  | .unfinished => .error (.unfinished .list)
  | .unseparated => .error (.malformed .unseparatedItems)
  | .trailingComma => .error (.malformed .trailingComma)

/-- Whether a list that is passed over ends as it should. -/
def ListEnd.skim : ListEnd → Except Fault Unit
  | .trailingComma => .error (.malformed .noValue)
  | other => other.check

/-- Whether the object ends as it should. -/
def ObjectEnd.check : ObjectEnd → Except Fault Unit
  | .closed => .ok ()
  | .unfinished => .error (.unfinished .object)
  | .unseparated => .error (.malformed .unseparatedMembers)
  | .trailingComma => .error (.malformed .trailingComma)
  | .cutAfterComma => .error (.unfinished .value)
  | .notKey => .error (.malformed .keyNotString)
  | .loneKey key fault => do let _ ← key.value; .error fault

/-- Whether an object that is passed over ends as it should. -/
def ObjectEnd.skim : ObjectEnd → Except Fault Unit
  | .trailingComma => .error (.malformed .keyNotString)
  | .cutAfterComma => .error (.unfinished .object)
  | .loneKey key fault => do key.ending.check; .error fault
  | other => other.check

namespace Doc

/-! ## Walks -/

mutual

/-- Whether the whole value can be read. -/
def check : Doc → Except Fault Unit
  | .null | .bool _ => .ok ()
  | .number n => do let _ ← n.value
  | .string q => do let _ ← q.value
  | .array items ending => do checkItems items; ending.check
  | .object members ending => do checkMembers members; ending.check
  | .deep _ => .error (.malformed .nestedTooDeep)
  | .broken b => .error b.fault

/-- Whether all items can be read. -/
def checkItems : List Doc → Except Fault Unit
  | [] => .ok ()
  | item :: rest => do check item; checkItems rest

/-- Whether all members can be read, key before value. -/
def checkMembers : List (Quoted × Doc) → Except Fault Unit
  | [] => .ok ()
  | (key, value) :: rest => do let _ ← key.value; check value; checkMembers rest

end

mutual

/-- Whether the value can be passed over. -/
def skim : Doc → Except Fault Unit
  | .null | .bool _ | .number _ => .ok ()
  | .string q => q.ending.check
  | .array items ending => do skimItems items; ending.skim
  | .object members ending => do skimMembers members; ending.skim
  | .deep container => skim container
  | .broken b => .error b.skimFault

/-- Whether all items can be passed over. -/
def skimItems : List Doc → Except Fault Unit
  | [] => .ok ()
  | item :: rest => do skim item; skimItems rest

/-- Whether all members can be passed over. -/
def skimMembers : List (Quoted × Doc) → Except Fault Unit
  | [] => .ok ()
  | (key, value) :: rest => do key.ending.check; skim value; skimMembers rest

end

/-! ## Values of the wrong type -/

/-- What a mismatch calls the value. A container is named at its opening, all else is read first. -/
def found : Doc → Except Fault Found
  | .null => .ok .null
  | .bool value => .ok (.bool value)
  | .number n => return .number (← n.value)
  | .string q => return .string (← q.value)
  | .array _ _ => .ok .list
  | .object _ _ => .ok .object
  | .deep container => found container
  | .broken b => .error b.fault

/-- The fault of a value that stands where another type is expected. -/
def mismatch {α : Type} (doc : Doc) (expected : String) : Except Fault α := do
  .error (.mismatch (.wrongType (← doc.found) expected))

/-! ## Depth -/

mutual

/-- The value with every container marked that is nested in `room` others. -/
def limitDepth (room : Nat) : Doc → Doc
  | .array items ending =>
    match room with
    | 0 => .deep (.array items ending)
    | room + 1 => .array (limitItems room items) ending
  | .object members ending =>
    match room with
    | 0 => .deep (.object members ending)
    | room + 1 => .object (limitMembers room members) ending
  | other => other

/-- The items with every container marked that is nested in `room` others. -/
def limitItems (room : Nat) : List Doc → List Doc
  | [] => []
  | item :: rest => limitDepth room item :: limitItems room rest

/-- The members with every container marked that is nested in `room` others. -/
def limitMembers (room : Nat) : List (Quoted × Doc) → List (Quoted × Doc)
  | [] => []
  | (key, value) :: rest => (key, limitDepth room value) :: limitMembers room rest

end

/-- How many containers may be nested in one another. -/
def maxDepth : Nat := 127

end Doc

end RulesText.Json
