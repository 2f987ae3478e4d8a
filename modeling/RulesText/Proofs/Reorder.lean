import Mathlib.Data.List.Forall2
import Mathlib.Logic.Relation
import RulesText.Proofs.Members
import RulesText.Proofs.Texts

/-!
# Documents in another order

A document may be put into another order step by step: a step permutes the members of one of its
objects, however deep that object is nested. A step keeps what can be read completely or passed
over, and if a document has a text, so has the document after the step.
-/

namespace RulesText.Json
open Relation
open Format (valuesOf payload tagMember)

/-! ## Steps -/

/-- A step: the members of one object in the document are permuted. -/
inductive Doc.Reorders : Doc → Doc → Prop
  | members {members members' : List (Quoted × Doc)} (ending : ObjectEnd)
    (order : members.Perm members') : Reorders (.object members ending) (.object members' ending)
  | item {item item' : Doc} (before after : List Doc) (ending : ListEnd)
    (inside : Reorders item item') : Reorders (.array (before ++ item :: after) ending)
      (.array (before ++ item' :: after) ending)
  | member {value value' : Doc} (before after : List (Quoted × Doc)) (key : Quoted)
    (ending : ObjectEnd) (inside : Reorders value value') :
    Reorders (.object (before ++ (key, value) :: after) ending)
      (.object (before ++ (key, value') :: after) ending)
  | deep {container container' : Doc} (inside : Reorders container container') :
    Reorders (.deep container) (.deep container')

/-- What holds of all in a row holds of all when one is exchanged for another of which it holds. -/
theorem forall_mem_exchange {α : Type} {P : α → Prop} {a b : α} {before after : List α}
    (each : ∀ x ∈ before ++ a :: after, P x) (keeps : P a → P b) :
    ∀ x ∈ before ++ b :: after, P x := by
  rw [List.forall_mem_append, List.forall_mem_cons] at each ⊢
  exact ⟨each.1, keeps each.2.1, each.2.2⟩

namespace Doc.Reorders

variable {doc doc' : Doc}

theorem check (step : Reorders doc doc') (checked : doc.check = .ok ()) : doc'.check = .ok () := by
  induction step with
  | members ending order =>
    rw [check_object_iff] at checked ⊢
    exact ⟨fun member listed => checked.1 member (order.mem_iff.2 listed), checked.2⟩
  | item before after ending _ ih =>
    rw [check_array_iff] at checked ⊢
    exact ⟨forall_mem_exchange checked.1 ih, checked.2⟩
  | member before after key ending _ ih =>
    rw [check_object_iff] at checked ⊢
    exact ⟨forall_mem_exchange checked.1 fun ⟨named, inside⟩ => ⟨named, ih inside⟩, checked.2⟩
  | deep _ _ => cases checked

theorem skim (step : Reorders doc doc') (skimmed : doc.skim = .ok ()) : doc'.skim = .ok () := by
  induction step with
  | members ending order =>
    rw [skim_object_iff] at skimmed ⊢
    exact ⟨fun member listed => skimmed.1 member (order.mem_iff.2 listed), skimmed.2⟩
  | item before after ending _ ih =>
    rw [skim_array_iff] at skimmed ⊢
    exact ⟨forall_mem_exchange skimmed.1 ih, skimmed.2⟩
  | member before after key ending _ ih =>
    rw [skim_object_iff] at skimmed ⊢
    exact ⟨forall_mem_exchange skimmed.1 fun ⟨named, inside⟩ => ⟨named, ih inside⟩, skimmed.2⟩
  | deep _ ih => exact ih skimmed

end Doc.Reorders

/-! ## Depth -/

namespace Doc

theorem limitItems_eq_map (room : Nat) (items : List Doc) :
    limitItems room items = items.map (limitDepth room) := by
  induction items with
  | nil => rfl
  | cons item items ih => rw [limitItems, ih, List.map_cons]

theorem limitMembers_eq_map (room : Nat) (members : List (Quoted × Doc)) :
    limitMembers room members = members.map fun member => (member.1, member.2.limitDepth room) := by
  induction members with
  | nil => rfl
  | cons member members ih => rw [limitMembers, ih, List.map_cons]

/-- Containers are nested as deep as before. -/
theorem Reorders.limitDepth {doc doc' : Doc} (step : Reorders doc doc') (room : Nat) :
    Reorders (doc.limitDepth room) (doc'.limitDepth room) := by
  induction step generalizing room with
  | members ending order =>
    cases room with
    | zero => exact .deep (.members ending order)
    | succ room =>
      simp only [Doc.limitDepth, limitMembers_eq_map]
      exact .members ending (order.map _)
  | item before after ending inside ih =>
    cases room with
    | zero => exact .deep (.item before after ending inside)
    | succ room =>
      simp only [Doc.limitDepth, limitItems_eq_map, List.map_append, List.map_cons]
      exact .item _ _ ending (ih room)
  | member before after key ending inside ih =>
    cases room with
    | zero => exact .deep (.member before after key ending inside)
    | succ room =>
      simp only [Doc.limitDepth, limitMembers_eq_map, List.map_append, List.map_cons]
      exact .member _ _ key ending (ih room)
  | deep inside _ => exact .deep inside

end Doc

/-! ## Texts -/

theorem SpellsNextItems.each {items : List Doc} {text : List Char}
    (spelled : SpellsNextItems items text) : ∀ item ∈ items, ∃ body, Spells item body := by
  induction items generalizing text with
  | nil => simp
  | cons item items ih =>
    cases spelled with
    | some _ _ first more => exact List.forall_mem_cons.2 ⟨⟨_, first⟩, ih more⟩

theorem exists_spellsNextItems {items : List Doc}
    (each : ∀ item ∈ items, ∃ body, Spells item body) : ∃ body, SpellsNextItems items body := by
  induction items with
  | nil => exact ⟨_, .none Gap.nil⟩
  | cons item items ih =>
    obtain ⟨⟨_, first⟩, others⟩ := List.forall_mem_cons.1 each
    obtain ⟨_, more⟩ := ih others
    exact ⟨_, .some Gap.nil Gap.nil first more⟩

theorem exists_spells_array_iff {items : List Doc} {ending : ListEnd} :
    (∃ body, Spells (.array items ending) body) ↔
      ending = .closed ∧ ∀ item ∈ items, ∃ body, Spells item body := by
  constructor
  · rintro ⟨_, spelled⟩
    cases spelled with
    | array inside =>
      cases inside with
      | none _ => exact ⟨rfl, by simp⟩
      | some _ first more => exact ⟨rfl, List.forall_mem_cons.2 ⟨⟨_, first⟩, more.each⟩⟩
  · rintro ⟨rfl, each⟩
    cases items with
    | nil => exact ⟨_, .array (.none Gap.nil)⟩
    | cons item items =>
      obtain ⟨⟨_, first⟩, others⟩ := List.forall_mem_cons.1 each
      obtain ⟨_, more⟩ := exists_spellsNextItems others
      exact ⟨_, .array (.some Gap.nil first more)⟩

/-- Whether a member has a text. -/
def SpellableMember (member : Quoted × Doc) : Prop :=
  (∃ name, SpellsQuoted member.1 name) ∧ ∃ body, Spells member.2 body

theorem SpellsNextMembers.each {members : List (Quoted × Doc)} {text : List Char}
    (spelled : SpellsNextMembers members text) : ∀ member ∈ members, SpellableMember member := by
  induction members generalizing text with
  | nil => simp
  | cons member members ih =>
    cases spelled with
    | some _ _ spelled =>
      cases spelled with
      | mk named _ _ first more =>
        exact List.forall_mem_cons.2 ⟨⟨⟨_, named⟩, _, first⟩, ih more⟩

theorem exists_spellsNextMembers {members : List (Quoted × Doc)}
    (each : ∀ member ∈ members, SpellableMember member) :
    ∃ body, SpellsNextMembers members body := by
  induction members with
  | nil => exact ⟨_, .none Gap.nil⟩
  | cons member members ih =>
    obtain ⟨⟨⟨_, named⟩, _, first⟩, others⟩ := List.forall_mem_cons.1 each
    obtain ⟨_, more⟩ := ih others
    exact ⟨_, .some Gap.nil Gap.nil (.mk named Gap.nil Gap.nil first more)⟩

theorem exists_spells_object_iff {members : List (Quoted × Doc)} {ending : ObjectEnd} :
    (∃ body, Spells (.object members ending) body) ↔
      ending = .closed ∧ ∀ member ∈ members, SpellableMember member := by
  constructor
  · rintro ⟨_, spelled⟩
    cases spelled with
    | object inside =>
      cases inside with
      | none _ => exact ⟨rfl, by simp⟩
      | some _ spelled =>
        cases spelled with
        | mk named _ _ first more =>
          exact ⟨rfl, List.forall_mem_cons.2 ⟨⟨⟨_, named⟩, _, first⟩, more.each⟩⟩
  · rintro ⟨rfl, each⟩
    cases members with
    | nil => exact ⟨_, .object (.none Gap.nil)⟩
    | cons member members =>
      obtain ⟨⟨⟨_, named⟩, _, first⟩, others⟩ := List.forall_mem_cons.1 each
      obtain ⟨_, more⟩ := exists_spellsNextMembers others
      exact ⟨_, .object (.some Gap.nil (.mk named Gap.nil Gap.nil first more))⟩

namespace Doc

theorem Reorders.exists_spells {doc doc' : Doc} (step : Reorders doc doc')
    (spelled : ∃ body, Spells doc body) : ∃ body, Spells doc' body := by
  induction step with
  | members ending order =>
    rw [exists_spells_object_iff] at spelled ⊢
    exact ⟨spelled.1, fun member listed => spelled.2 member (order.mem_iff.2 listed)⟩
  | item before after ending _ ih =>
    rw [exists_spells_array_iff] at spelled ⊢
    exact ⟨spelled.1, forall_mem_exchange spelled.2 ih⟩
  | member before after key ending _ ih =>
    rw [exists_spells_object_iff] at spelled ⊢
    exact ⟨spelled.1, forall_mem_exchange spelled.2 fun ⟨named, inside⟩ => ⟨named, ih inside⟩⟩
  | deep _ _ =>
    obtain ⟨_, impossible⟩ := spelled
    cases impossible

/-- A document in another order has a text as well. -/
theorem exists_isText_of_reorders {doc doc' : Doc} (steps : ReflTransGen Reorders doc doc')
    {text : String} (spelled : doc.IsText text) : ∃ text', doc'.IsText text' := by
  have inside : ∃ body, Spells doc' body := by
    induction steps with
    | refl =>
      obtain ⟨_, body, _, _, inside, _⟩ := spelled
      exact ⟨body, inside⟩
    | tail _ step ih => exact step.exists_spells ih
  obtain ⟨body, inside⟩ := inside
  exact ⟨String.ofList body, [], body, [], Gap.nil, inside, Gap.nil, by simp⟩

/-! ## The parts of a container -/

/-- The items of a list after a step are those before, one of them perhaps a step further. -/
theorem Reorders.array {items : List Doc} {ending : ListEnd} {doc' : Doc}
    (step : Reorders (.array items ending) doc') :
    ∃ items', doc' = .array items' ending ∧ List.Forall₂ (ReflGen Reorders) items items' := by
  cases step with
  | @item item item' before after _ inside =>
    refine ⟨_, rfl, List.rel_append (List.forall₂_same.2 fun _ _ => .refl) ?_⟩
    exact .cons (.single inside) (List.forall₂_same.2 fun _ _ => .refl)

/-- How the members of an object after a step stem from those before: each has a key that was there
with the same value or one a step before, and the values behind a name correspond one to one. -/
structure Rearranged (members members' : List (Quoted × Doc)) : Prop where
  each : ∀ member' ∈ members', ∃ member ∈ members,
    member.1 = member'.1 ∧ ReflGen Reorders member.2 member'.2
  values : ∀ name, ∃ values, (valuesOf members name).Perm values ∧
    List.Forall₂ (ReflGen Reorders) values (valuesOf members' name)

theorem valuesOf_append (members others : List (Quoted × Doc)) (name : String) :
    valuesOf (members ++ others) name = valuesOf members name ++ valuesOf others name := by
  unfold valuesOf
  rw [List.filter_append, List.map_append]

theorem Reorders.object {members : List (Quoted × Doc)} {ending : ObjectEnd} {doc' : Doc}
    (step : Reorders (.object members ending) doc') :
    ∃ members', doc' = .object members' ending ∧ Rearranged members members' := by
  cases step with
  | members _ order =>
    refine ⟨_, rfl, fun member listed => ?_, fun name => ?_⟩
    · exact ⟨member, order.mem_iff.2 listed, rfl, .refl⟩
    · exact ⟨_, (order.filter _).map _, List.forall₂_same.2 fun _ _ => .refl⟩
  | @member value value' before after key _ inside =>
    refine ⟨_, rfl, fun member listed => ?_, fun name => ⟨_, List.Perm.refl _, ?_⟩⟩
    · rcases List.mem_append.1 listed with front | back
      · exact ⟨member, List.mem_append_left _ front, rfl, .refl⟩
      · rcases List.mem_cons.1 back with rfl | behind
        · exact ⟨(key, value), by simp, rfl, .single inside⟩
        · exact ⟨member, by simp [behind], rfl, .refl⟩
    · rw [valuesOf_append, valuesOf_append, Format.valuesOf_cons, Format.valuesOf_cons]
      refine List.rel_append (List.forall₂_same.2 fun _ _ => .refl) ?_
      split
      · exact .cons (.single inside) (List.forall₂_same.2 fun _ _ => .refl)
      · exact List.forall₂_same.2 fun _ _ => .refl

namespace Rearranged

variable {members members' : List (Quoted × Doc)}

theorem length (rearranged : Rearranged members members') (name : String) :
    (valuesOf members' name).length = (valuesOf members name).length := by
  obtain ⟨_, order, related⟩ := rearranged.values name
  rw [order.length_eq, related.length_eq]

/-- A value that is alone behind its name stays alone. -/
theorem single (rearranged : Rearranged members members') {name : String} {doc : Doc}
    (alone : valuesOf members name = [doc]) :
    ∃ doc', valuesOf members' name = [doc'] ∧ ReflGen Reorders doc doc' := by
  obtain ⟨values, order, related⟩ := rearranged.values name
  rw [alone, List.singleton_perm] at order
  subst order
  obtain ⟨doc', _, first, more, same⟩ := List.forall₂_cons_left_iff.1 related
  cases more
  exact ⟨doc', same, first⟩

/-- What is looked up is found as before, if it was there no more than once. -/
theorem lookup (rearranged : Rearranged members members') {name : String}
    (once : (valuesOf members name).length ≤ 1) :
    Option.Rel (ReflGen Reorders) (Format.lookup members name) (Format.lookup members' name) := by
  rw [Format.lookup_eq_head?, Format.lookup_eq_head?]
  cases values : valuesOf members name with
  | nil =>
    have none : valuesOf members' name = [] := by
      rw [← List.length_eq_zero_iff, rearranged.length, values, List.length_nil]
    rw [none]
    exact .none
  | cons doc docs =>
    rw [values, List.length_cons] at once
    obtain rfl : docs = [] := List.length_eq_zero_iff.1 (by omega)
    obtain ⟨doc', alone, related⟩ := rearranged.single values
    rw [alone]
    exact .some related

theorem payload (rearranged : Rearranged members members') :
    Rearranged (payload members) (payload members') := by
  constructor
  · intro member' listed
    obtain ⟨among, other⟩ := Format.mem_payload_iff.1 listed
    obtain ⟨member, source, key, related⟩ := rearranged.each member' among
    exact ⟨member, Format.mem_payload_iff.2 ⟨source, key ▸ other⟩, key, related⟩
  · intro name
    by_cases tag : name = tagMember
    · subst tag
      rw [Format.valuesOf_payload_tag, Format.valuesOf_payload_tag]
      exact ⟨[], List.Perm.refl _, .nil⟩
    · rw [Format.valuesOf_payload tag, Format.valuesOf_payload tag]
      exact rearranged.values name

end Rearranged

end Doc

end RulesText.Json
