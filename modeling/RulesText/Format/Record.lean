import RulesText.Format.Reader

/-!
# Records

A shape lists the members of a record in their order and says what becomes of their values. A
record is written as an object, with its members in any order, or by position, as an array of the
values in the order of the shape.
-/

namespace RulesText.Format
open RulesText.Json

/-- A member of a record: its name, its reader, and the value it has when it is left out. A member
without such a value is required. -/
structure Field (α : Type) where
  name : String
  read : Reader α
  absent : Option α

/-- The members of a record in order, and the value built from theirs. -/
inductive Shape : Type → Type 1 where
  | value {α : Type} (value : α) : Shape α
  | member {α β : Type} (field : Field α) (rest : Shape (α → β)) : Shape β

namespace Shape

/-! ## Building shapes -/

/-- The shape with another value built from its value. -/
def map {α β : Type} (build : α → β) : Shape α → Shape β
  | .value a => .value (build a)
  | .member field rest => .member field (rest.map (build ∘ ·))

/-- The members of one shape and then those of another. -/
def append {α β γ : Type} (build : α → β → γ) : Shape α → Shape β → Shape γ
  | .value a, next => next.map (build a)
  | .member field rest, next => .member field (rest.append (fun f b a => build (f a) b) next)

instance : Functor Shape where
  map := Shape.map

instance : Applicative Shape where
  pure := .value
  seq build next := build.append (fun f a => f a) (next ())

/-- A member that must be there. -/
def required {α : Type} (name : String) (read : Reader α) : Shape α :=
  .member ⟨name, read, none⟩ (.value id)

/-- A member that may be left out or be null. -/
def optional {α : Type} (name : String) (read : Reader α) : Shape (Option α) :=
  .member ⟨name, nullable read, some none⟩ (.value id)

/-- A member that may be left out and then has a value of its own; it may not be null. -/
def defaulted {α : Type} (name : String) (read : Reader α) (absent : α) : Shape α :=
  .member ⟨name, read, some absent⟩ (.value id)

/-! ## Reading by name -/

/-- The names of the members, in order. -/
def names {α : Type} : Shape α → List String
  | .value _ => []
  | .member field rest => field.name :: rest.names

/-- Whether the value of a member can be read, if the record has a member of that name. -/
def probe? {α : Type} (source : Source) (name : String) : Shape α → Option (Doc → Except Fault Unit)
  | .value _ => none
  | .member field rest =>
    if field.name = name then some fun doc => do let _ ← field.read source doc
    else rest.probe? source name

end Shape

/-- The value of a member, read from its document or taken for granted. -/
def Field.take {α : Type} (field : Field α) (source : Source) : Option Doc → Except Fault α
  | some doc => field.read source doc
  | none =>
    match field.absent with
    | some a => pure a
    | none => mismatch (.missingMember field.name)

namespace Shape

/-- The record whose members are looked up by name, in the order of the shape. -/
def gather {α : Type} (source : Source) (lookup : String → Option Doc) : Shape α → Except Fault α
  | .value a => pure a
  | .member field rest => do
    let a ← field.take source (lookup field.name)
    let build ← rest.gather source lookup
    pure (build a)

@[simp] theorem names_map {α β : Type} (build : α → β) (shape : Shape α) :
    (shape.map build).names = shape.names := by
  induction shape generalizing β with
  | value a => rfl
  | member field rest ih => simp [map, names, ih]

@[simp] theorem names_append {α β γ : Type} (build : α → β → γ) (shape : Shape α)
    (next : Shape β) : (shape.append build next).names = shape.names ++ next.names := by
  induction shape generalizing γ with
  | value a => simp [append, names]
  | member field rest ih => simp [append, names, ih]

theorem gather_map {α β : Type} (source : Source) (lookup : String → Option Doc) (build : α → β)
    (shape : Shape α) :
    (shape.map build).gather source lookup = build <$> shape.gather source lookup := by
  induction shape generalizing β with
  | value a => rfl
  | member field rest ih => simp [map, gather, ih]

theorem gather_append {α β γ : Type} (source : Source) (lookup : String → Option Doc)
    (build : α → β → γ) (shape : Shape α) (next : Shape β) :
    (shape.append build next).gather source lookup =
      (shape.gather source lookup >>= fun a => build a <$> next.gather source lookup) := by
  induction shape generalizing γ with
  | value a => simp [append, gather, gather_map]
  | member field rest ih => simp [append, gather, ih]

/-! ## Reading by position -/

/-- The record whose members come one after the other, and the items left over. When the items run
out the end of the list is looked at first; `index` counts the members passed. -/
def deal {α : Type} (source : Source) (expected : String) (ending : ListEnd) :
    Nat → List Doc → Shape α → Except Fault (α × List Doc)
  | _, items, .value a => pure (a, items)
  | index, item :: items, .member field rest => do
    let a ← field.read source item
    let (build, left) ← rest.deal source expected ending (index + 1) items
    pure (build a, left)
  | index, [], .member field rest => do
    ending.check
    let a ← match field.absent with
      | some a => pure a
      | none => mismatch (.wrongLength index expected)
    let (build, left) ← rest.deal source expected ending (index + 1) []
    pure (build a, left)

end Shape

/-- The first document behind a key. -/
def lookup (members : List (Quoted × Doc)) (name : String) : Option Doc :=
  (members.find? fun (key, _) => key.is name).map (·.2)

/-- A record type: what messages call it, whether it passes over members that it does not know,
and its members. -/
structure Record (α : Type) where
  title : String
  lenient : Bool
  shape : Shape α

namespace Record

variable {α : Type} (record : Record α)

/-- Whether a key may follow those seen before it. -/
def allow (seen : List String) (name : String) : Except Fault Unit :=
  if name ∈ record.shape.names then
    if name ∈ seen then mismatch (.repeatedMember name) else pure ()
  else if record.lenient then pure ()
  else mismatch (.unknownMember name record.shape.names)

/-- The value of a member that the record has is read, every other one is passed over. -/
def inspectValue (source : Source) (name : String) (value : Doc) : Except Fault Unit :=
  match record.shape.probe? source name with
  | some probe => probe value
  | none => value.skim

/-- Whether the object ends as it should; a key without a value is looked at as a key. -/
def inspectEnd (seen : List String) : ObjectEnd → Except Fault Unit
  | .loneKey key fault => do
    record.allow seen (← key.value)
    .error fault
  | ending => ending.check

/-- The members in the order of the text, each key before its value, up to the first fault. -/
def inspect (source : Source) :
    List String → List (Quoted × Doc) → ObjectEnd → Except Fault Unit
  | seen, [], ending => record.inspectEnd seen ending
  | seen, (key, value) :: rest, ending => do
    let name ← key.value
    record.allow seen name
    record.inspectValue source name value
    inspect source (name :: seen) rest ending

/-- The record of an object. Its members are inspected in the order of the text, and then gathered
in the order of the shape, when one that is missing comes to light. -/
def ofMembers (source : Source) (members : List (Quoted × Doc)) (ending : ObjectEnd) :
    Except Fault α := do
  record.inspect source [] members ending
  record.shape.gather source (lookup members)

/-- A number of elements. -/
def elements (count : Nat) : String :=
  toString count ++ (if count = 1 then " element" else " elements")

/-- Whether nothing follows the last member of a record by position. In the text a further item is
unexpected as such; in a buffer it makes the array too long. -/
def finish (source : Source) (length : Nat) (left : List Doc) (ending : ListEnd) :
    Except Fault Unit :=
  match source, left, ending with
  | .text, [], .unseparated => malformed .trailingText
  | .text, [], ending => ending.check
  | .text, _ :: _, _ => malformed .trailingText
  | .buffer, [], _ => pure ()
  | .buffer, _ :: _, _ =>
    mismatch (.wrongLength length (elements record.shape.names.length ++ " in sequence"))

/-- The record of an array. -/
def ofItems (source : Source) (items : List Doc) (ending : ListEnd) : Except Fault α := do
  let expected := record.title ++ " with " ++ elements record.shape.names.length
  let (value, left) ← record.shape.deal source expected ending 0 items
  record.finish source items.length left ending
  pure value

/-- The record of a document. -/
def read : Reader α := fun source doc =>
  match doc with
  | .object members ending => record.ofMembers source members ending
  | .array items ending => record.ofItems source items ending
  | .deep _ => malformed .nestedTooDeep
  | _ => doc.mismatch record.title

end Record

end RulesText.Format
