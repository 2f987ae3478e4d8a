import RulesText.Proofs.GatedEffects

/-!
# The places of a record

A record by name and one by position have the same places: what stands at a member is behind its
name in an object, and in an array at the position that the shape gives the name. However a text
gives them, the value is gathered from the documents at these places. In a record with a tag, the
tag comes before the members of its kind.
-/

namespace RulesText.Json
open RulesText.Format

namespace Doc

/-- What stands at a member of a record with the given names, by name or by position. -/
def member? (names : List String) (name : String) : Doc → Option Doc
  | .object members _ => lookup members name
  | .array items _ => (names.zip items).lookup name
  | _ => none

/-- Whether a member of a record with the given names is a string of the tag. -/
def Spells (names : List String) (doc : Doc) (name tag : String) : Prop :=
  ∃ quoted, doc.member? names name = some (.string quoted) ∧ quoted.value = .ok tag

/-- Whether the tag of a document is that of a kind. -/
def HasKind {κ : Type} [Vocabulary κ] (doc : Doc) (kind : κ) : Prop :=
  doc.Spells [tagMember] tagMember (Vocabulary.spelling kind)

theorem Spells.unique {names : List String} {doc : Doc} {name tag tag' : String}
    (spells : doc.Spells names name tag) (spells' : doc.Spells names name tag') : tag = tag' := by
  obtain ⟨quoted, place, spelled⟩ := spells
  obtain ⟨quoted', place', spelled'⟩ := spells'
  obtain rfl : quoted = quoted' := by simpa using place.symm.trans place'
  exact Except.ok.inj (spelled.symm.trans spelled')

theorem HasKind.unique {κ : Type} [Vocabulary κ] {doc : Doc} {kind kind' : κ}
    (typed : doc.HasKind kind) (typed' : doc.HasKind kind') : kind = kind' :=
  Vocabulary.spelling_injective (Spells.unique typed typed')

/-! ## Depth -/

theorem lookup_limitItems (room : Nat) (name : String) (names : List String) (items : List Doc) :
    (names.zip (limitItems room items)).lookup name =
      ((names.zip items).lookup name).map (limitDepth room) := by
  induction names generalizing items with
  | nil => rfl
  | cons first names ih =>
    cases items with
    | nil => rfl
    | cons item items =>
      rw [limitItems, List.zip_cons_cons, List.zip_cons_cons, List.lookup_cons, List.lookup_cons,
        ih]
      cases name == first <;> rfl

/-- Cutting containers off leaves the places where they are. -/
theorem member?_limitDepth (room : Nat) (names : List String) (name : String) (doc : Doc) :
    (doc.limitDepth (room + 1)).member? names name =
      (doc.member? names name).map (limitDepth room) := by
  cases doc with
  | object members ending => exact congrFun (lookup_limitMembers room members) name
  | array items ending => exact lookup_limitItems room name names items
  | null | bool _ | number _ | string _ | deep _ | broken _ => rfl

theorem Spells.limitDepth {names : List String} {doc : Doc} {name tag : String}
    (spells : doc.Spells names name tag) (room : Nat) :
    (doc.limitDepth (room + 1)).Spells names name tag := by
  obtain ⟨quoted, place, spelled⟩ := spells
  refine ⟨quoted, ?_, spelled⟩
  rw [member?_limitDepth, place]
  cases room <;> rfl

theorem HasKind.limitDepth {κ : Type} [Vocabulary κ] {doc : Doc} {kind : κ}
    (typed : doc.HasKind kind) (room : Nat) : (doc.limitDepth (room + 1)).HasKind kind :=
  Spells.limitDepth typed room

end Doc

end RulesText.Json

namespace RulesText.Format
open RulesText.Json

variable {α β : Type} {source : Source} {find : String → Option Doc}

/-! ## Gathering from places -/

/-- What is dealt by position is gathered from the documents at the positions of the names. -/
theorem Shape.gather_of_deal {shape : Shape α} (distinct : shape.names.Nodup) {expected : String}
    {ending : ListEnd} {index : Nat} {items left : List Doc} {value : α}
    (dealt : shape.deal source expected ending index items = .ok (value, left)) :
    shape.gather source (fun name => (shape.names.zip items).lookup name) = .ok value := by
  induction shape generalizing index items left with
  | value a =>
    unfold deal at dealt
    cases dealt
    rfl
  | member field rest ih =>
    obtain ⟨fresh, distinct⟩ := List.nodup_cons.1 distinct
    cases items with
    | nil =>
      obtain ⟨_, a, absent, build, others, rfl⟩ := deal_nil_eq_ok_iff.1 dealt
      have gathered := ih distinct others
      rw [List.zip_nil_right] at gathered
      refine bind_eq_ok_iff.2 ⟨a, ?_, bind_eq_ok_iff.2 ⟨build, gathered, rfl⟩⟩
      simp only [List.zip_nil_right, List.lookup_nil, Field.take, absent]
      rfl
    | cons item items =>
      obtain ⟨a, first, build, others, rfl⟩ := deal_cons_eq_ok_iff.1 dealt
      -- The first name hides none of the later ones, which differ from it.
      have gathered : rest.gather source (fun name =>
          ((field.name :: rest.names).zip (item :: items)).lookup name) = .ok build := by
        rw [← ih distinct others]
        refine Shape.gather_congr fun name listed => ?_
        have different : (name == field.name) = false := by
          simp only [beq_eq_false_iff_ne, ne_eq]
          rintro rfl
          exact fresh listed
        rw [List.zip_cons_cons, List.lookup_cons, different]
      refine bind_eq_ok_iff.2 ⟨a, ?_, bind_eq_ok_iff.2 ⟨build, gathered, rfl⟩⟩
      simp only [names, List.zip_cons_cons, List.lookup_cons_self]
      exact first

namespace Record

variable {record : Record α} {value : α}

theorem gather_of_items (distinct : record.shape.names.Nodup) {items : List Doc}
    {ending : ListEnd} (done : record.ofItems source items ending = .ok value) :
    record.shape.gather source (fun name => (record.shape.names.zip items).lookup name) =
      .ok value := by
  obtain ⟨⟨built, left⟩, dealt, done⟩ := bind_eq_ok done
  obtain ⟨_, _, same⟩ := bind_eq_ok done
  cases same
  exact Shape.gather_of_deal distinct dealt

/-- A record is gathered from what stands at its places. -/
theorem gather_of_read (distinct : record.shape.names.Nodup) {doc : Doc}
    (done : record.read source doc = .ok value) :
    record.shape.gather source (fun name => doc.member? record.shape.names name) = .ok value := by
  unfold Record.read at done
  split at done
  · exact (ofMembers_eq_ok_iff.1 done).2.2
  · exact gather_of_items distinct done
  · cases done
  · exact absurd done mismatch_ne_ok

end Record

/-- A record with a tag has a kind, and is gathered from the places of that kind. -/
theorem gather_of_tagged {κ : Type} [Vocabulary κ] {record : κ → Record α} {title : String}
    (distinct : ∀ kind, (tagMember :: (record kind).shape.names).Nodup) {doc : Doc} {value : α}
    (done : tagged title record source doc = .ok value) :
    ∃ kind, doc.HasKind kind ∧ (record kind).shape.gather .buffer
      (fun name => doc.member? (tagMember :: (record kind).shape.names) name) = .ok value := by
  have other {kind : κ} {name : String} (own : name ∈ (record kind).shape.names) :
      name ≠ tagMember := by
    rintro rfl
    exact (List.nodup_cons.1 (distinct kind)).1 own
  unfold tagged at done
  split at done
  · rename_i members ending
    obtain ⟨kind, tag, done⟩ := bind_eq_ok done
    obtain ⟨doc, single, read⟩ := (tagOfMembers_eq_ok_iff.1 tag).2.once
    obtain ⟨quoted, rfl, spelled⟩ := tagWord_eq_ok_iff.1 read
    have first : lookup members tagMember = some (.string quoted) := by
      rw [lookup_eq_head?, single]
      rfl
    refine ⟨kind, ⟨quoted, first, spelled⟩, ?_⟩
    rw [← (Record.ofMembers_eq_ok_iff.1 done).2.2]
    refine Shape.gather_congr fun name own => ?_
    rw [lookup_payload (other own), ← lookup_eq_head?]
    rfl
  · obtain ⟨_, _, impossible⟩ := bind_eq_ok done
    cases impossible
  · rename_i tag items ending
    obtain ⟨kind, read, kept⟩ := bind_eq_ok done
    obtain ⟨_, _, kept⟩ := bind_eq_ok kept
    obtain ⟨_, _, kept⟩ := bind_eq_ok kept
    obtain ⟨quoted, rfl, spelled⟩ := tagWord_eq_ok_iff.1 read
    refine ⟨kind, ⟨quoted, rfl, spelled⟩, ?_⟩
    rw [← Record.gather_of_items (List.nodup_cons.1 (distinct kind)).2 kept]
    refine Shape.gather_congr fun name own => ?_
    have different : (name == tagMember) = false := by
      simpa only [beq_eq_false_iff_ne, ne_eq] using other own
    rw [Doc.member?, List.zip_cons_cons, List.lookup_cons, different]
  · cases done
  · exact absurd done mismatch_ne_ok

namespace Shape

/-! ## What is found at the places -/

/-- Whether every value that a shape gathers from the documents at given places has a property. -/
def Finds (source : Source) (find : String → Option Doc) (shape : Shape α) (P : α → Prop) : Prop :=
  ∀ value, shape.gather source find = .ok value → P value

namespace Finds

variable {P : α → Prop} {Q : β → Prop}

theorem map {shape : Shape α} {build : α → β}
    (finds : shape.Finds source find fun a => Q (build a)) :
    (build <$> shape).Finds source find Q := by
  intro b gathered
  obtain ⟨a, inner, same⟩ := bind_eq_ok ((shape.gather_map source find build).symm.trans gathered)
  cases same
  exact finds a inner

theorem seq {shape : Shape (α → β)} {next : Shape α}
    (finds : shape.Finds source find fun build => ∀ a, P a → Q (build a))
    (finds' : next.Finds source find P) : (shape <*> next).Finds source find Q := by
  intro b gathered
  obtain ⟨build, inner, done⟩ :=
    bind_eq_ok ((Shape.gather_append source find _ shape next).symm.trans gathered)
  obtain ⟨a, others, same⟩ := bind_eq_ok done
  cases same
  exact finds build inner a (finds' a others)

theorem mono {shape : Shape α} {P' : α → Prop} (finds : shape.Finds source find P)
    (weaker : ∀ a, P a → P' a) : shape.Finds source find P' :=
  fun value gathered => weaker value (finds value gathered)

theorem any (shape : Shape α) : shape.Finds source find fun _ => True := fun _ _ => trivial

/-- The value of a member is what its reader makes of the document at its place. -/
theorem field (field : Field α) : (Shape.member field (.value id)).Finds source find
    fun a => ∀ doc, find field.name = some doc → field.read source doc = .ok a := by
  intro a gathered doc place
  obtain ⟨b, taken, same⟩ := bind_eq_ok gathered
  cases same
  rwa [place] at taken

theorem required (name : String) (read : Reader α) : (Shape.required name read).Finds source find
    fun a => ∀ doc, find name = some doc → read source doc = .ok a :=
  field _

theorem defaulted (name : String) (read : Reader α) (absent : α) :
    (Shape.defaulted name read absent).Finds source find
      fun a => ∀ doc, find name = some doc → read source doc = .ok a :=
  field _

/-- Where something other than null stands, an optional member is present. -/
theorem optional (name : String) (read : Reader α) : (Shape.optional name read).Finds source find
    fun value => ∀ doc, find name = some doc → doc ≠ .null →
      ∃ a, read source doc = .ok a ∧ value = some a := by
  refine (field ⟨name, nullable read, some none⟩).mono fun value reads doc place present => ?_
  have done : nullable read source doc = .ok value := reads doc place
  unfold Format.nullable at done
  split at done
  · exact absurd rfl present
  · cases done
  · obtain ⟨a, read, same⟩ := bind_eq_ok done
    cases same
    exact ⟨a, read, rfl⟩

end Finds

end Shape

end RulesText.Format
