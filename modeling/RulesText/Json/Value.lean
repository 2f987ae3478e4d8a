import RulesText.Json.Number

/-!
# JSON values

A plain value, as it is written. The members of an object keep their order, and a name may occur
more than once.
-/

namespace RulesText

/-- A plain JSON value. -/
inductive Json where
  | null
  | bool (value : Bool)
  | number (value : Json.Number)
  | string (text : String)
  | array (items : List Json)
  | object (members : List (String × Json))
  deriving Inhabited, Repr

namespace Json

/-- An unsigned 32-bit integer. -/
def ofUInt32 (value : UInt32) : Json := .number (.int value.toNat)

/-- A signed 32-bit integer. -/
def ofInt32 (value : Int32) : Json := .number (.int value.toInt)

/-- A member that is written only when its value is present. -/
def present {α : Type} (name : String) (write : α → Json) (value : Option α) :
    List (String × Json) :=
  (value.map fun a => (name, write a)).toList

/-- A flag that is written only when it is set. -/
def flag (name : String) (value : Bool) : List (String × Json) :=
  if value then [(name, .bool true)] else []

end Json

end RulesText
