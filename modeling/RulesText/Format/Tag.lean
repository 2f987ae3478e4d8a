import RulesText.Format.Reader
import RulesText.Json.Value

/-!
# Tags

A vocabulary is a finite type whose words have one spelling each. A tag is written as a string, or
as an object with the tag as its only key and null behind it. A closed vocabulary refuses every
other tag; an open one keeps it as it is spelled.
-/

namespace RulesText.Format
open RulesText.Json

/-- Finitely many words, each with a spelling of its own: the first word spelled like a given one
is that word. -/
class Vocabulary (κ : Type) where
  words : List κ
  spelling : κ → String
  find_spelling : ∀ word, words.find? (fun other => spelling other == spelling word) = some word

namespace Vocabulary

variable {κ : Type} [Vocabulary κ]

/-- The word with a spelling. -/
def find? (tag : String) : Option κ :=
  words.find? fun word => spelling word == tag

/-- The spellings of all words, in their order. -/
def spellings (κ : Type) [Vocabulary κ] : List String :=
  (words : List κ).map spelling

/-- The word with a spelling, or the fault that names all of them. -/
def find (tag : String) : Except Fault κ :=
  match find? tag with
  | some word => pure word
  | none => mismatch (.unknownTag tag (spellings κ))

theorem find?_spelling (word : κ) : find? (spelling word) = some word := find_spelling word

theorem spelling_of_find? {tag : String} {word : κ} (h : find? tag = some word) :
    spelling word = tag := by
  simpa using List.find?_some h

theorem mem_words (word : κ) : word ∈ (words : List κ) :=
  List.mem_of_find?_eq_some (find_spelling word)

theorem spelling_injective {word other : κ} (h : spelling word = spelling other) :
    word = other := by
  have found := find?_spelling word
  rw [h, find?_spelling other] at found
  exact (Option.some.inj found).symm

end Vocabulary

/-- A word of a vocabulary as a string. -/
def wordJson {κ : Type} [Vocabulary κ] (word : κ) : Json := .string (Vocabulary.spelling word)

/-! ## Closed vocabularies -/

/-- Nothing, written as null. -/
def unit (doc : Doc) : Except Fault Unit :=
  match doc with
  | .null => pure ()
  | _ => doc.mismatch "unit"

/-- The fault of a place in the text where a tag should begin and does not. -/
def notTag : Breakage → Fault
  | .absent => .unfinished .value
  | _ => .malformed .noValue

/-- The word of an object in the text: its first key, with null behind it and nothing more. Where the
key should begin, the end of the text leaves the object unfinished, a closing brace is a missing
value, and anything else is a key that is no string. -/
def wordOfMembers {κ : Type} [Vocabulary κ] :
    List (Quoted × Doc) → ObjectEnd → Except Fault κ
  | [], .loneKey key fault => do
    let _ ← (Vocabulary.find (← key.value) : Except Fault κ)
    .error fault
  | [], ending => do
    ending.check
    malformed .noValue
  | (key, value) :: rest, ending => do
    let word ← Vocabulary.find (← key.value)
    unit value
    match rest, ending with
    | [], .closed => pure word
    | [], .unfinished => .error (.unfinished .object)
    | _, _ => malformed .noValue

/-- A word of a closed vocabulary. In the text anything that is no tag at all is a missing value; in
a buffer it is a value of the wrong type, and an empty object does for null. -/
def word {κ : Type} [Vocabulary κ] : Reader κ
  | .text, doc =>
    match doc with
    | .string tag => do Vocabulary.find (← tag.value)
    | .object members ending => wordOfMembers members ending
    | .deep (.object _ _) => malformed .nestedTooDeep
    | .broken breakage => .error (notTag breakage)
    | _ => malformed .noValue
  | .buffer, doc =>
    match doc with
    | .string tag => do Vocabulary.find (← tag.value)
    | .object [(key, .object [] _)] _ => do Vocabulary.find (← key.value)
    | .object [(key, value)] _ => do
      let word ← Vocabulary.find (← key.value)
      unit value
      pure word
    | .object _ _ => mismatch (.wrongValue .object "map with a single key")
    | _ => doc.mismatch "string or map"

/-! ## Open vocabularies -/

/-- A tag of an open vocabulary: one of its words, or a spelling that it does not know. -/
inductive OpenTag (κ : Type) where
  | known (word : κ)
  | unknown (tag : String)
  deriving DecidableEq, Repr

namespace OpenTag

variable {κ : Type} [Vocabulary κ]

/-- The tag with a spelling. -/
def ofString (tag : String) : OpenTag κ :=
  match Vocabulary.find? tag with
  | some word => .known word
  | none => .unknown tag

/-- The tag as it is spelled. -/
def spelling : OpenTag κ → String
  | .known word => Vocabulary.spelling word
  | .unknown tag => tag

/-- A tag as a string. -/
def toJson (tag : OpenTag κ) : Json := .string tag.spelling

@[simp] theorem spelling_ofString (tag : String) : (ofString tag : OpenTag κ).spelling = tag := by
  unfold ofString
  split
  · exact Vocabulary.spelling_of_find? ‹_›
  · rfl

end OpenTag

/-- The text of a string. -/
def string? : Doc → Option String
  | .string quoted => quoted.value.toOption
  | _ => none

/-- The word that a document spells, in either form. -/
def word? {κ : Type} [Vocabulary κ] : Doc → Option κ
  | .string tag => tag.value.toOption.bind Vocabulary.find?
  | .object [(key, .null)] _ => key.value.toOption.bind Vocabulary.find?
  | _ => none

/-- The tag that a document spells: a known word in either form, or any other string. -/
def tag? {κ : Type} [Vocabulary κ] (doc : Doc) : Option (OpenTag κ) :=
  ((word? doc).map .known).or ((string? doc).map .unknown)

/-- A value with several readings: it is checked as a whole, and then taken in the first way that
fits. -/
def alternatives {α : Type} (type : String) (read? : Doc → Option α) : Reader α := fun _ doc => do
  doc.check
  match read? doc with
  | some value => pure value
  | none => mismatch (.noAlternative type)

/-- A tag of an open vocabulary. -/
def openTag {κ : Type} [Vocabulary κ] (type : String) : Reader (OpenTag κ) :=
  alternatives type tag?

end RulesText.Format
