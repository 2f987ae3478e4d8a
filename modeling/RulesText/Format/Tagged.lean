import RulesText.Format.Record
import RulesText.Format.Tag

/-!
# Records with a type tag

The member `type` says which record an object is. The other members may stand on either side of
it, so they are checked and kept until the object has ended, and only then read as that record. By
position, the tag comes first.
-/

namespace RulesText.Format
open RulesText.Json

/-- The name of the tag's member. -/
def tagMember : String := "type"

section

variable {κ : Type} [Vocabulary κ]

/-- The tag itself: a string and nothing else. -/
def tagWord : Doc → Except Fault κ
  | .string tag => do Vocabulary.find (← tag.value)
  | doc => doc.mismatch "variant identifier"

/-- Whether a key may follow. -/
def allowTag (tag : Option κ) (name : String) : Except Fault Unit :=
  if name = tagMember ∧ tag.isSome then mismatch (.repeatedMember tagMember) else pure ()

/-- The tag among the members, in the order of the text; all other members are checked. -/
def tagOfMembers (tag : Option κ) : List (Quoted × Doc) → ObjectEnd → Except Fault κ
  | [], .loneKey key fault => do
    allowTag tag (← key.value)
    .error fault
  | [], ending => do
    ending.check
    match tag with
    | some word => pure word
    | none => mismatch (.missingMember tagMember)
  | (key, value) :: rest, ending => do
    let name ← key.value
    allowTag tag name
    if name = tagMember then
      let word ← tagWord value
      tagOfMembers (some word) rest ending
    else
      value.check
      tagOfMembers tag rest ending

/-- The members other than the tag. -/
def payload (members : List (Quoted × Doc)) : List (Quoted × Doc) :=
  members.filter fun (key, _) => !key.is tagMember

/-- A record that its tag selects. -/
def tagged {α : Type} (title : String) (record : κ → Record α) : Reader α := fun _ doc =>
  match doc with
  | .object members ending => do
    let word ← tagOfMembers none members ending
    (record word).ofMembers .buffer (payload members) .closed
  | .array [] ending => do
    ending.check
    mismatch (.missingMember tagMember)
  | .array (tag :: items) ending => do
    let word ← tagWord tag
    Doc.checkItems items
    ending.check
    (record word).ofItems .buffer items .closed
  | .deep _ => malformed .nestedTooDeep
  | _ => doc.mismatch title

end

end RulesText.Format
