import RulesText.Format.Reader
import RulesText.Proofs.Spelling

/-!
# Printed values are scanned again

The document of a plain value, and the two printed forms of the value as texts that spell it. A
reader of either text therefore sees that document and nothing else.
-/

namespace RulesText.Json
open RulesText.Format

/-! ## Values as documents -/

/-- The numeral that a number is written as. -/
def Numeral.ofNumber : Number → Numeral
  | .int value => .ofInt value
  | .float negative magnitude =>
    let decimal := magnitude.shortest
    ⟨negative, (Nat.toDigits 10 decimal.digits).map digit, [], some decimal.exponent⟩

mutual

/-- The value as it stands in a text that spells it. -/
def toDoc : Json → Doc
  | .null => .null
  | .bool value => .bool value
  | .number value => .number (.ofNumber value)
  | .string text => .string (.ofText text)
  | .array items => .array (itemDocs items) .closed
  | .object members => .object (memberDocs members) .closed

/-- The items as they stand in a text. -/
def itemDocs : List Json → List Doc
  | [] => []
  | item :: items => item.toDoc :: itemDocs items

/-- The members as they stand in a text. -/
def memberDocs : List (String × Json) → List (Quoted × Doc)
  | [] => []
  | (name, value) :: members => (.ofText name, value.toDoc) :: memberDocs members

end

/-- Whether a value can be read back from its text: its numbers are integers of the 64-bit range,
and at most `room` containers are nested in one another. -/
inductive Fits : Nat → Json → Prop
  | null {room : Nat} : Fits room .null
  | bool {room : Nat} (value : Bool) : Fits room (.bool value)
  | int {room : Nat} {value : Int} (inside : InRange value) : Fits room (.number (.int value))
  | string {room : Nat} (text : String) : Fits room (.string text)
  | array {room : Nat} {items : List Json} (inside : ∀ item ∈ items, Fits room item) :
    Fits (room + 1) (.array items)
  | object {room : Nat} {members : List (String × Json)}
    (inside : ∀ member ∈ members, Fits room member.2) : Fits (room + 1) (.object members)

/-! ## The document of a value is sound -/

theorem limitItems_itemDocs {room : Nat} {items : List Json}
    (each : ∀ item ∈ items, item.toDoc.limitDepth room = item.toDoc) :
    Doc.limitItems room (itemDocs items) = itemDocs items := by
  induction items with
  | nil => rfl
  | cons item items ih =>
    rw [itemDocs, Doc.limitItems, each item List.mem_cons_self,
      ih fun other member => each other (List.mem_cons_of_mem item member)]

theorem limitMembers_memberDocs {room : Nat} {members : List (String × Json)}
    (each : ∀ member ∈ members, member.2.toDoc.limitDepth room = member.2.toDoc) :
    Doc.limitMembers room (memberDocs members) = memberDocs members := by
  induction members with
  | nil => rfl
  | cons member members ih =>
    rw [memberDocs, Doc.limitMembers, each member List.mem_cons_self,
      ih fun other listed => each other (List.mem_cons_of_mem member listed)]

/-- No container of a value that fits is marked as nested too deep. -/
theorem Fits.limitDepth {room : Nat} {j : Json} (fits : Fits room j) :
    j.toDoc.limitDepth room = j.toDoc := by
  induction fits with
  | array _ ih => rw [toDoc, Doc.limitDepth, limitItems_itemDocs ih]
  | object _ ih => rw [toDoc, Doc.limitDepth, limitMembers_memberDocs ih]
  | _ => rfl

theorem checkItems_itemDocs {items : List Json}
    (each : ∀ item ∈ items, item.toDoc.check = .ok ()) :
    Doc.checkItems (itemDocs items) = .ok () := by
  induction items with
  | nil => rfl
  | cons item items ih =>
    rw [itemDocs, Doc.checkItems, each item List.mem_cons_self]
    exact ih fun other member => each other (List.mem_cons_of_mem item member)

theorem checkMembers_memberDocs {members : List (String × Json)}
    (each : ∀ member ∈ members, member.2.toDoc.check = .ok ()) :
    Doc.checkMembers (memberDocs members) = .ok () := by
  induction members with
  | nil => rfl
  | cons member members ih =>
    rw [memberDocs, Doc.checkMembers, Quoted.value_ofText, each member List.mem_cons_self]
    exact ih fun other listed => each other (List.mem_cons_of_mem member listed)

/-- A value that fits is read completely without a fault. -/
theorem Fits.check {room : Nat} {j : Json} (fits : Fits room j) : j.toDoc.check = .ok () := by
  induction fits with
  | null => rfl
  | bool value => rfl
  | int inside => rw [toDoc, Doc.check, Numeral.ofNumber, value_ofInt inside]; rfl
  | string text => rw [toDoc, Doc.check, Quoted.value_ofText]; rfl
  | array _ ih => rw [toDoc, Doc.check, checkItems_itemDocs ih]; rfl
  | object _ ih => rw [toDoc, Doc.check, checkMembers_memberDocs ih]; rfl

/-! ## Printed texts spell the document -/

/-- The text of a printed string behind its opening quote. -/
def printedInside (text : String) : List Char := text.toList.flatMap escapedChar ++ ['"']

theorem printString_eq (text : String) : printString text = '"' :: printedInside text := by
  simp [printString, printedInside]

theorem printedInside_spells (text : String) :
    SpellsQuoted (.ofText text) (printedInside text) := by
  intro rest
  rw [printedInside, List.append_assoc]
  exact scanQuoted_printed text rest

theorem printedNumber_spells (value : Int) :
    SpellsNumeral (.ofInt value) (Number.int value).text.toList :=
  fun _ ends => scanNumeral_int value ends

theorem compactItems_spells {items : List Json}
    (each : ∀ item ∈ items, Spells item.toDoc (printCompact item)) :
    SpellsNextItems (itemDocs items) (printCompactItems items) := by
  induction items with
  | nil => exact .none Gap.nil
  | cons item items ih =>
    have first := each item List.mem_cons_self
    have more := ih fun other member => each other (List.mem_cons_of_mem item member)
    exact .some Gap.nil Gap.nil first more

theorem compactMembers_spells {members : List (String × Json)}
    (each : ∀ member ∈ members, Spells member.2.toDoc (printCompact member.2)) :
    SpellsNextMembers (memberDocs members) (printCompactMembers members) := by
  induction members with
  | nil => exact .none Gap.nil
  | cons member members ih =>
    obtain ⟨name, value⟩ := member
    have first := each (name, value) List.mem_cons_self
    have more := ih fun other listed => each other (List.mem_cons_of_mem _ listed)
    rw [memberDocs, printCompactMembers, printString_eq]
    simpa [List.append_assoc] using SpellsNextMembers.some Gap.nil Gap.nil
      (.mk (printedInside_spells name) Gap.nil Gap.nil first more)

/-- The compact form of a value spells it. -/
theorem Fits.compact_spells {room : Nat} {j : Json} (fits : Fits room j) :
    Spells j.toDoc (printCompact j) := by
  induction fits with
  | null => exact .null
  | bool value =>
    cases value with
    | true => exact .yes
    | false => exact .no
  | @int room value inside => exact .number (printedNumber_spells value)
  | string text =>
    rw [printCompact, printString_eq]
    exact .string (printedInside_spells text)
  | @array room items _ ih =>
    cases items with
    | nil => exact .array (.none Gap.nil)
    | cons item items =>
      have first := ih item List.mem_cons_self
      have more := compactItems_spells fun other member =>
        ih other (List.mem_cons_of_mem item member)
      exact .array (.some Gap.nil first more)
  | @object room members _ ih =>
    cases members with
    | nil => exact .object (.none Gap.nil)
    | cons member members =>
      obtain ⟨name, value⟩ := member
      have first := ih (name, value) List.mem_cons_self
      have more := compactMembers_spells fun other listed =>
        ih other (List.mem_cons_of_mem _ listed)
      rw [toDoc, memberDocs, printCompact, printString_eq]
      simpa [List.append_assoc] using Spells.object (.some Gap.nil
        (.mk (printedInside_spells name) Gap.nil Gap.nil first more))

theorem newLine_blank (depth : Nat) : Gap (newLine depth) := by
  intro c member
  rcases List.mem_cons.1 member with rfl | space
  · rfl
  · rw [List.eq_of_mem_replicate space]
    rfl

theorem space_blank : Gap [' '] := by
  intro c member
  rw [List.mem_singleton.1 member]
  rfl

theorem linesItems_spells {depth : Nat} {items : List Json}
    (each : ∀ item ∈ items, Spells item.toDoc (printLines (depth + 1) item)) :
    SpellsNextItems (itemDocs items) (printLinesItems depth items) := by
  induction items with
  | nil => exact .none (newLine_blank depth)
  | cons item items ih =>
    have first := each item List.mem_cons_self
    have more := ih fun other member => each other (List.mem_cons_of_mem item member)
    rw [printLinesItems]
    exact .some Gap.nil (newLine_blank (depth + 1)) first more

theorem linesMembers_spells {depth : Nat} {members : List (String × Json)}
    (each : ∀ member ∈ members, Spells member.2.toDoc (printLines (depth + 1) member.2)) :
    SpellsNextMembers (memberDocs members) (printLinesMembers depth members) := by
  induction members with
  | nil => exact .none (newLine_blank depth)
  | cons member members ih =>
    obtain ⟨name, value⟩ := member
    have first := each (name, value) List.mem_cons_self
    have more := ih fun other listed => each other (List.mem_cons_of_mem _ listed)
    rw [memberDocs, printLinesMembers, printString_eq]
    simpa [List.append_assoc] using SpellsNextMembers.some Gap.nil (newLine_blank (depth + 1))
      (.mk (printedInside_spells name) Gap.nil space_blank first more)

/-- The laid-out form of a value spells it. -/
theorem Fits.lines_spells {room : Nat} {j : Json} (fits : Fits room j) (depth : Nat) :
    Spells j.toDoc (printLines depth j) := by
  induction fits generalizing depth with
  | null => exact .null
  | @bool room value => exact (Fits.bool value : Fits room _).compact_spells
  | @int room value inside => exact (Fits.int inside : Fits room _).compact_spells
  | @string room text => exact (Fits.string text : Fits room _).compact_spells
  | @array room items _ ih =>
    cases items with
    | nil => exact .array (.none Gap.nil)
    | cons item items =>
      have first := ih item List.mem_cons_self (depth + 1)
      have more := linesItems_spells fun other member =>
        ih other (List.mem_cons_of_mem item member) (depth + 1)
      rw [printLines]
      exact .array (.some (newLine_blank (depth + 1)) first more)
  | @object room members _ ih =>
    cases members with
    | nil => exact .object (.none Gap.nil)
    | cons member members =>
      obtain ⟨name, value⟩ := member
      have first := ih (name, value) List.mem_cons_self (depth + 1)
      have more := linesMembers_spells fun other listed =>
        ih other (List.mem_cons_of_mem _ listed) (depth + 1)
      rw [toDoc, memberDocs, printLines, printString_eq]
      simpa [List.append_assoc] using Spells.object (.some (newLine_blank (depth + 1))
        (.mk (printedInside_spells name) Gap.nil space_blank first more))

/-! ## Reading a printed text -/

theorem scan_of_spells {j : Json} (fits : Fits Doc.maxDepth j) {text : List Char}
    (spelled : Spells j.toDoc text) : Doc.scan (String.ofList text) = (j.toDoc, []) := by
  have whole : (String.ofList text).toList = [] ++ (text ++ []) := by simp
  rw [Doc.scan_spells Gap.nil spelled Gap.nil whole, fits.limitDepth]

/-- With no text left over, the value that was read stands. -/
theorem ofText_of_scan {α : Type} (read : Reader α) {text : String} {doc : Doc}
    (scanned : Doc.scan text = (doc, [])) : read.ofText text = read .text doc := by
  unfold Reader.ofText
  rw [scanned]
  show (read .text doc >>= fun value => pure value) = read .text doc
  exact bind_pure _

/-- Reading the compact text of a value is reading its document. -/
theorem ofText_compact {α : Type} (read : Reader α) {j : Json} (fits : Fits Doc.maxDepth j) :
    read.ofText j.compact = read .text j.toDoc :=
  ofText_of_scan read (scan_of_spells fits fits.compact_spells)

/-- Reading the laid-out text of a value is reading its document. -/
theorem ofText_pretty {α : Type} (read : Reader α) {j : Json} (fits : Fits Doc.maxDepth j) :
    read.ofText j.pretty = read .text j.toDoc :=
  ofText_of_scan read (scan_of_spells fits (fits.lines_spells 0))

end RulesText.Json
