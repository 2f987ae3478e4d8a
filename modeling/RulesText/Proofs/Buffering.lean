import RulesText.Proofs.Unordered
import RulesText.Vocabulary.Condition

/-!
# Reading from a text and from a buffer

A value of its own is read straight from its text; one among the members of a tagged record is
checked and kept until the tag is known, and only then read from the buffer. A reader of which both
take the same documents for the same values may be nested in records by name and by position. An
empty object is left out, which a buffer alone takes for null, and so are members that a record
does not know, which a buffer checks more closely.
-/

namespace RulesText.Json

/-! ## Empty objects -/

/-- Whether an empty object stands anywhere in a document. -/
inductive Doc.HasEmpty : Doc → Prop
  | here (ending : ObjectEnd) : HasEmpty (.object [] ending)
  | item {items : List Doc} {item : Doc} (ending : ListEnd) (listed : item ∈ items)
    (inside : HasEmpty item) : HasEmpty (.array items ending)
  | member {members : List (Quoted × Doc)} {key : Quoted} {value : Doc} (ending : ObjectEnd)
    (listed : (key, value) ∈ members) (inside : HasEmpty value) :
    HasEmpty (.object members ending)

/-! ## Depth -/

namespace Doc

theorem limitDepth_eq_null_iff {doc : Doc} {room : Nat} :
    doc.limitDepth room = .null ↔ doc = .null := by
  cases doc <;> cases room <;> simp [limitDepth]

theorem limitDepth_eq_broken_iff {doc : Doc} {room : Nat} {breakage : Breakage} :
    doc.limitDepth room = .broken breakage ↔ doc = .broken breakage := by
  cases doc <;> cases room <;> simp [limitDepth]

theorem Leaf.limitDepth {doc : Doc} (leaf : doc.Leaf) {room : Nat} (enough : 1 ≤ room) :
    doc.limitDepth room = doc := by
  obtain ⟨room, rfl⟩ := Nat.exists_eq_add_of_le' enough
  cases leaf <;> rfl

/-- No container is cut off where a leaf is left. -/
theorem leaf_of_limitDepth {doc : Doc} {room : Nat} (leaf : (doc.limitDepth room).Leaf) :
    doc.Leaf := by
  match doc, room with
  | .number numeral, _ => exact .number numeral
  | .string quoted, _ => exact .string quoted
  | .object members ending, room + 1 =>
    generalize limited : (Doc.object members ending).limitDepth (room + 1) = doc at leaf
    cases leaf with
    | tag key ending' =>
      rw [Doc.limitDepth, limitMembers_eq_map] at limited
      obtain ⟨single, rfl⟩ := Doc.object.inj limited
      obtain ⟨⟨key, value⟩, rfl, same⟩ := List.map_eq_singleton_iff.1 single
      obtain rfl := limitDepth_eq_null_iff.1 (Prod.mk.inj same).2
      exact .tag key ending
    | number | string => cases limited
  | .object _ _, 0 => cases leaf
  | .array _ _, 0 | .array _ _, room + 1 => cases leaf
  | .null, _ | .bool _, _ | .deep _, _ | .broken _, _ => cases leaf

/-- Cutting containers off leaves no empty object that was not there. -/
theorem hasEmpty_of_limitDepth {doc : Doc} {room : Nat} (empty : (doc.limitDepth room).HasEmpty) :
    doc.HasEmpty := by
  generalize limited : doc.limitDepth room = doc' at empty
  induction empty generalizing doc room with
  | here ending =>
    match doc, room with
    | .object members ending', room + 1 =>
      rw [Doc.limitDepth, limitMembers_eq_map] at limited
      obtain ⟨none, rfl⟩ := Doc.object.inj limited
      obtain rfl := List.map_eq_nil_iff.1 none
      exact .here ending'
    | .array _ _, 0 | .array _ _, room + 1 | .object _ _, 0 => cases limited
  | item ending listed inside ih =>
    match doc, room with
    | .array items ending', room + 1 =>
      rw [Doc.limitDepth, limitItems_eq_map] at limited
      obtain ⟨rfl, rfl⟩ := Doc.array.inj limited
      obtain ⟨item, among, same⟩ := List.mem_map.1 listed
      exact .item ending' among (ih same)
    | .object _ _, 0 | .object _ _, room + 1 | .array _ _, 0 => cases limited
  | member ending listed inside ih =>
    match doc, room with
    | .object members ending', room + 1 =>
      rw [Doc.limitDepth, limitMembers_eq_map] at limited
      obtain ⟨rfl, rfl⟩ := Doc.object.inj limited
      obtain ⟨⟨key, value⟩, among, same⟩ := List.mem_map.1 listed
      exact .member ending' among (ih (Prod.mk.inj same).2)
    | .array _ _, 0 | .array _ _, room + 1 | .object _ _, 0 => cases limited

end Doc

end RulesText.Json

namespace RulesText.Format
open RulesText.Json

variable {α β γ : Type} {room : Nat}

/-! ## Readers -/

/-- Whether a reader makes the same of documents in a text and in a buffer, where they have been
checked as a whole: of those without an empty object, and as long as containers are cut off only
that are nested in at least `room` others. -/
def Reader.Buffers (room : Nat) (read : Reader α) : Prop :=
  ∀ doc : Doc, ¬ doc.HasEmpty → ∀ near far, room ≤ near → room ≤ far → ∀ value,
    read .text (doc.limitDepth near) = .ok value ↔
      (doc.limitDepth far).check = .ok () ∧ read .buffer (doc.limitDepth far) = .ok value

/-- A value with several readings, all of which take leaves only. -/
theorem buffers_alternatives {type : String} {read? : Doc → Option α}
    (leaf : ∀ {doc a}, read? doc = some a → doc.Leaf) :
    (alternatives type read?).Buffers 1 := by
  intro doc _ near far enough enough' value
  -- Whatever is read is the whole document, and checking it twice does no harm.
  have reads (room : Nat) (source : Source) (some : 1 ≤ room) :
      alternatives type read? source (doc.limitDepth room) = .ok value ↔
        doc.check = .ok () ∧ read? doc = .some value := by
    unfold alternatives
    rw [seq_eq_ok_iff]
    constructor
    · rintro ⟨checked, done⟩
      split at done
      · rename_i a read
        cases done
        have whole := (Doc.leaf_of_limitDepth (leaf read)).limitDepth some
        rw [whole] at checked read
        exact ⟨checked, read⟩
      · cases done
    · rintro ⟨checked, read⟩
      rw [(leaf read).limitDepth some, read]
      exact ⟨checked, rfl⟩
  rw [reads near _ enough, reads far _ enough']
  constructor
  · rintro ⟨checked, read⟩
    rw [(leaf read).limitDepth enough']
    exact ⟨checked, checked, read⟩
  · exact fun both => both.2

theorem nullable_eq_ok_iff {read : Reader α} {source : Source} {doc : Doc} {value : Option α}
    (present : doc ≠ .null) (sound : ∀ breakage, doc ≠ .broken breakage) :
    nullable read source doc = .ok value ↔ ∃ a, read source doc = .ok a ∧ value = some a := by
  have reads : nullable read source doc = some <$> read source doc := by
    cases doc with
    | null => exact absurd rfl present
    | broken breakage => exact absurd rfl (sound breakage)
    | _ => rfl
  rw [reads]
  cases read source doc with
  | error fault => exact ⟨nofun, nofun⟩
  | ok a =>
    constructor
    · intro done
      cases done
      exact ⟨a, rfl, rfl⟩
    · rintro ⟨_, same, rfl⟩
      cases same
      rfl

theorem Reader.Buffers.nullable {read : Reader α} (buffers : read.Buffers room) :
    (nullable read).Buffers room := by
  intro doc full near far enough enough' value
  have inner := fun a => buffers doc full near far enough enough' a
  by_cases null : doc = .null
  · subst null
    exact ⟨fun done => ⟨rfl, done⟩, fun both => both.2⟩
  by_cases broken : ∃ breakage, doc = .broken breakage
  · -- What breaks off cannot be kept, and a null that does is a fault of its own.
    obtain ⟨breakage, rfl⟩ := broken
    constructor
    · intro done
      unfold Format.nullable at done
      split at done
      · contradiction
      · cases done
      · obtain ⟨a, read, _⟩ := bind_eq_ok done
        exact nomatch ((inner a).1 read).1
    · exact fun both => nomatch both.1
  · have reads (source : Source) (room : Nat) :
        Format.nullable read source (doc.limitDepth room) = .ok value ↔
          ∃ a, read source (doc.limitDepth room) = .ok a ∧ value = some a :=
      nullable_eq_ok_iff (mt Doc.limitDepth_eq_null_iff.1 null) fun breakage same =>
        broken ⟨breakage, Doc.limitDepth_eq_broken_iff.1 same⟩
    rw [reads, reads]
    constructor
    · rintro ⟨a, read, rfl⟩
      obtain ⟨checked, kept⟩ := (inner a).1 read
      exact ⟨checked, a, kept, rfl⟩
    · rintro ⟨checked, a, kept, rfl⟩
      exact ⟨a, (inner a).2 ⟨checked, kept⟩, rfl⟩

section

variable {κ : Type} [Vocabulary κ]

/-- A document that stands for a word, as a string or as an object with null behind the tag. -/
inductive Denotes (w : κ) : Doc → Prop
  | string {quoted : Quoted} (spelled : quoted.value = .ok (Vocabulary.spelling w)) :
    Denotes w (.string quoted)
  | tag {key : Quoted} (spelled : key.value = .ok (Vocabulary.spelling w)) :
    Denotes w (.object [(key, .null)] .closed)

theorem Denotes.leaf {w : κ} {doc : Doc} (denotes : Denotes w doc) : doc.Leaf := by
  cases denotes with
  | string => exact .string _
  | tag => exact .tag _ _

theorem Denotes.check {w : κ} {doc : Doc} (denotes : Denotes w doc) : doc.check = .ok () := by
  cases denotes with
  | string spelled => exact discard_eq_ok_iff.2 ⟨_, spelled⟩
  | tag spelled =>
    refine Doc.check_object_iff.2 ⟨fun member listed => ?_, rfl⟩
    rw [List.mem_singleton.1 listed]
    exact ⟨⟨_, spelled⟩, rfl⟩

theorem find_value_eq_ok_iff {quoted : Quoted} {w : κ} :
    (do Vocabulary.find (← quoted.value) : Except Fault κ) = .ok w ↔
      quoted.value = .ok (Vocabulary.spelling w) := by
  simp only [bind_eq_ok_iff, find_eq_ok_iff, exists_eq_right]

theorem word_text_iff {doc : Doc} {w : κ} : word .text doc = .ok w ↔ Denotes w doc := by
  constructor
  · intro done
    unfold word at done
    dsimp only at done
    split at done
    · exact .string (find_value_eq_ok_iff.1 done)
    · obtain ⟨key, name, rfl, rfl, _⟩ := wordOfMembers_eq_ok done
      obtain ⟨name, spelled, done⟩ := bind_eq_ok done
      obtain ⟨w', found, same⟩ := bind_eq_ok done
      cases same
      exact .tag (find_eq_ok_iff.1 found ▸ spelled)
    all_goals cases done
  · intro denotes
    cases denotes with
    | string spelled => exact find_value_eq_ok_iff.2 spelled
    | tag spelled =>
      exact bind_eq_ok_iff.2 ⟨_, spelled, bind_eq_ok_iff.2 ⟨w, find_eq_ok_iff.2 rfl, rfl⟩⟩

/-- A buffer takes no other documents for words, unless an empty object does for null. -/
theorem word_buffer_iff {doc : Doc} (full : ¬ doc.HasEmpty) {w : κ} :
    doc.check = .ok () ∧ word .buffer doc = .ok w ↔ Denotes w doc := by
  constructor
  · rintro ⟨checked, done⟩
    unfold word at done
    dsimp only at done
    split at done
    · exact .string (find_value_eq_ok_iff.1 done)
    · exact absurd (.member _ List.mem_cons_self (.here _)) full
    · obtain ⟨name, spelled, done⟩ := bind_eq_ok done
      obtain ⟨w', found, done⟩ := bind_eq_ok done
      obtain ⟨null, same⟩ := seq_eq_ok_iff.1 done
      cases same
      obtain rfl := unit_eq_ok null
      obtain rfl := (Doc.check_object_iff.1 checked).2
      exact .tag (find_eq_ok_iff.1 found ▸ spelled)
    · cases done
    · exact absurd done mismatch_ne_ok
  · intro denotes
    refine ⟨denotes.check, ?_⟩
    cases denotes with
    | string spelled => exact find_value_eq_ok_iff.2 spelled
    | tag spelled =>
      exact bind_eq_ok_iff.2 ⟨_, spelled, bind_eq_ok_iff.2 ⟨w, find_eq_ok_iff.2 rfl, rfl⟩⟩

theorem buffers_word : (word : Reader κ).Buffers 1 := by
  intro doc full near far enough enough' w
  rw [word_text_iff, word_buffer_iff fun empty => full (Doc.hasEmpty_of_limitDepth empty)]
  have whole (room : Nat) (some : 1 ≤ room) : Denotes w (doc.limitDepth room) ↔ Denotes w doc := by
    constructor
    · intro denotes
      rwa [(Doc.leaf_of_limitDepth denotes.leaf).limitDepth some] at denotes
    · intro denotes
      rwa [denotes.leaf.limitDepth some]
  rw [whole near enough, whole far enough']

end

/-! ## Members -/

theorem valuesOf_limitMembers (room : Nat) (members : List (Quoted × Doc)) (name : String) :
    valuesOf (Doc.limitMembers room members) name =
      (valuesOf members name).map (Doc.limitDepth room) := by
  rw [Doc.limitMembers_eq_map]
  unfold valuesOf
  rw [List.filter_map, List.map_map, List.map_map]
  rfl

theorem lookup_limitMembers (room : Nat) (members : List (Quoted × Doc)) :
    lookup (Doc.limitMembers room members) =
      fun name => (lookup members name).map (Doc.limitDepth room) := by
  funext name
  rw [lookup_eq_head?, lookup_eq_head?, valuesOf_limitMembers, List.head?_map]

theorem mem_of_lookup {members : List (Quoted × Doc)} {name : String} {doc : Doc}
    (found : lookup members name = some doc) : ∃ key, (key, doc) ∈ members := by
  rw [lookup_eq_head?] at found
  obtain ⟨key, listed, _⟩ := mem_valuesOf_iff.1 (List.mem_of_head? found)
  exact ⟨key, listed⟩

/-- Whether the readers of all members of a shape make the same of texts and buffers. -/
def Shape.Buffers {α : Type} (room : Nat) : Shape α → Prop
  | .value _ => True
  | .member field rest => field.read.Buffers room ∧ rest.Buffers room

namespace Shape

variable {field : Field α} {rest : Shape (α → β)} {source : Source} {expected : String}
  {ending : ListEnd} {index : Nat} {left : List Doc} {value : β}

theorem deal_cons_eq_ok_iff {item : Doc} {items : List Doc} :
    (Shape.member field rest).deal source expected ending index (item :: items) =
        .ok (value, left) ↔
      ∃ a, field.read source item = .ok a ∧ ∃ build,
        rest.deal source expected ending (index + 1) items = .ok (build, left) ∧
          build a = value := by
  simp only [deal, bind_eq_ok_iff]
  refine exists_congr fun a => and_congr_right fun _ => ?_
  constructor
  · rintro ⟨⟨build, others⟩, dealt, same⟩
    cases same
    exact ⟨build, dealt, rfl⟩
  · rintro ⟨build, dealt, rfl⟩
    exact ⟨(build, left), dealt, rfl⟩

theorem deal_nil_eq_ok_iff :
    (Shape.member field rest).deal source expected ending index [] = .ok (value, left) ↔
      ending.check = .ok () ∧ ∃ a, field.absent = some a ∧ ∃ build,
        rest.deal source expected ending (index + 1) [] = .ok (build, left) ∧
          build a = value := by
  rw [deal, seq_eq_ok_iff]
  refine and_congr_right fun _ => ?_
  cases field.absent with
  | none => simp [mismatch, bind, Except.bind]
  | some a =>
    simp only [bind_eq_ok_iff]
    constructor
    · rintro ⟨b, same, ⟨build, others⟩, dealt, whole⟩
      cases same
      cases whole
      exact ⟨a, rfl, build, dealt, rfl⟩
    · rintro ⟨b, same, build, dealt, rfl⟩
      cases same
      exact ⟨a, rfl, (build, left), dealt, rfl⟩

end Shape

namespace Shape.Buffers

theorem gather {shape : Shape α} (buffers : shape.Buffers room) (find : String → Option Doc)
    {near far : Nat} (enough : room ≤ near) (enough' : room ≤ far)
    (full : ∀ {name doc}, find name = some doc → ¬ doc.HasEmpty)
    (checked : ∀ {name doc}, find name = some doc → (doc.limitDepth far).check = .ok ())
    (value : α) :
    shape.gather .text (fun name => (find name).map (Doc.limitDepth near)) = .ok value ↔
      shape.gather .buffer (fun name => (find name).map (Doc.limitDepth far)) = .ok value := by
  induction shape with
  | value a => exact Iff.rfl
  | member field rest ih =>
    have taken (a) : field.take .text ((find field.name).map (Doc.limitDepth near)) = .ok a ↔
        field.take .buffer ((find field.name).map (Doc.limitDepth far)) = .ok a := by
      cases found : find field.name with
      | none => exact Iff.rfl
      | some doc =>
        refine (buffers.1 doc (full found) near far enough enough' a).trans ?_
        exact and_iff_right (checked found)
    simp only [Shape.gather, bind_eq_ok_iff, taken, ih buffers.2]

theorem probe? {shape : Shape α} (buffers : shape.Buffers room) {name : String}
    (own : name ∈ shape.names) : ∃ (β : Type) (read : Reader β), read.Buffers room ∧
      ∀ source, ∃ probe, shape.probe? source name = some probe ∧
        ∀ doc, probe doc = .ok () ↔ ∃ b, read source doc = .ok b := by
  induction shape with
  | value a => cases own
  | member field rest ih =>
    by_cases same : field.name = name
    · exact ⟨_, field.read, buffers.1, fun source =>
        ⟨_, if_pos same, fun _ => discard_eq_ok_iff⟩⟩
    · obtain ⟨β, read, inner, each⟩ :=
        ih buffers.2 ((List.mem_cons.1 own).resolve_left (Ne.symm same))
      refine ⟨β, read, inner, fun source => ?_⟩
      obtain ⟨probe, found, probes⟩ := each source
      exact ⟨probe, (if_neg same).trans found, probes⟩

/-- Nothing is left over by position in a text exactly if nothing is in a buffer. -/
theorem deal {shape : Shape α} (buffers : shape.Buffers room) {items : List Doc} {near far : Nat}
    (enough : room ≤ near) (enough' : room ≤ far) (full : ∀ item ∈ items, ¬ item.HasEmpty)
    (expected : String) (ending : ListEnd) (index : Nat) (value : α) :
    shape.deal .text expected ending index (Doc.limitItems near items) = .ok (value, []) ↔
      (∀ item ∈ Doc.limitItems far items, item.check = .ok ()) ∧
        shape.deal .buffer expected ending index (Doc.limitItems far items) = .ok (value, []) := by
  induction shape generalizing items index with
  | value a =>
    cases items with
    | nil => exact ⟨fun done => ⟨nofun, done⟩, fun both => both.2⟩
    | cons item items =>
      constructor
      · intro done
        unfold Shape.deal at done
        cases done
      · intro both
        unfold Shape.deal at both
        cases both.2
  | member field rest ih =>
    cases items with
    | nil =>
      have more := fun build => ih buffers.2 full (index + 1) build
      simp only [Doc.limitItems, List.not_mem_nil, false_implies, implies_true, true_and,
        Shape.deal_nil_eq_ok_iff] at more ⊢
      simp only [more]
    | cons item items =>
      obtain ⟨first, others⟩ := List.forall_mem_cons.1 full
      have read := fun a => buffers.1 item first near far enough enough' a
      have more := fun build => ih buffers.2 others (index + 1) build
      simp only [Doc.limitItems, Shape.deal_cons_eq_ok_iff, List.forall_mem_cons, read, more]
      constructor
      · rintro ⟨a, ⟨checked, kept⟩, build, ⟨each, dealt⟩, same⟩
        exact ⟨⟨checked, each⟩, a, kept, build, dealt, same⟩
      · rintro ⟨⟨checked, each⟩, a, kept, build, dealt, same⟩
        exact ⟨a, ⟨checked, kept⟩, build, ⟨each, dealt⟩, same⟩

end Shape.Buffers

namespace Record

variable {record : Record α}

theorem inspectValue_buffers (buffers : record.shape.Buffers room) {near far : Nat}
    (enough : room ≤ near) (enough' : room ≤ far) {name : String}
    (own : name ∈ record.shape.names) {doc : Doc} (full : ¬ doc.HasEmpty) :
    record.inspectValue .text name (doc.limitDepth near) = .ok () ↔
      (doc.limitDepth far).check = .ok () ∧
        record.inspectValue .buffer name (doc.limitDepth far) = .ok () := by
  obtain ⟨β, read, inner, each⟩ := buffers.probe? own
  obtain ⟨probe, found, probes⟩ := each .text
  obtain ⟨probe', found', probes'⟩ := each .buffer
  rw [inspectValue, inspectValue, found, found']
  dsimp only
  rw [probes, probes', ← exists_and_left]
  exact exists_congr (inner doc full near far enough enough')

/-- But for their values, members pass however deep containers may be nested. -/
theorem passes_limitMembers_iff {source : Source} {members : List (Quoted × Doc)} :
    record.Passes source [] (Doc.limitMembers room members) ↔
      (∀ member ∈ members, ∃ name, member.1.value = .ok name ∧
        (name ∈ record.shape.names ∨ record.lenient = true) ∧
          record.inspectValue source name (member.2.limitDepth room) = .ok ()) ∧
        ∀ name ∈ record.shape.names, (valuesOf members name).length ≤ 1 := by
  constructor
  · rintro ⟨each, once⟩
    rw [Doc.limitMembers_eq_map, List.forall_mem_map] at each
    refine ⟨each, fun name own => ?_⟩
    simpa [valuesOf_limitMembers] using once name own
  · rintro ⟨each, once⟩
    constructor
    · rwa [Doc.limitMembers_eq_map, List.forall_mem_map]
    · intro name own
      simpa [valuesOf_limitMembers] using once name own

/-- A text must end behind the last member of a record by position. -/
theorem ofItems_text_iff {items : List Doc} {ending : ListEnd} {value : α} :
    record.ofItems .text items ending = .ok value ↔
      record.shape.deal .text (record.title ++ " with " ++ elements record.shape.names.length)
        ending 0 items = .ok (value, []) ∧ ending = .closed := by
  simp only [ofItems, bind_eq_ok_iff]
  constructor
  · rintro ⟨⟨value, left⟩, dealt, _, finished, same⟩
    cases same
    obtain ⟨rfl, closed⟩ := finish_text finished
    exact ⟨dealt, closed⟩
  · rintro ⟨dealt, rfl⟩
    exact ⟨(value, []), dealt, (), rfl, rfl⟩

/-- In a buffer nothing may be left over. -/
theorem ofItems_buffer_iff {items : List Doc} {ending : ListEnd} {value : α} :
    record.ofItems .buffer items ending = .ok value ↔
      record.shape.deal .buffer (record.title ++ " with " ++ elements record.shape.names.length)
        ending 0 items = .ok (value, []) := by
  simp only [ofItems, bind_eq_ok_iff]
  constructor
  · rintro ⟨⟨value, left⟩, dealt, _, finished, same⟩
    cases same
    cases left with
    | nil => exact dealt
    | cons item left => cases finished
  · exact fun dealt => ⟨(value, []), dealt, (), rfl, rfl⟩

section

variable (buffers : record.shape.Buffers room) {near far : Nat} (enough : room ≤ near)
  (enough' : room ≤ far)

include buffers enough enough'

/-- Members that a record knows pass in a text if they can be kept and then pass. -/
theorem passes_buffers {members : List (Quoted × Doc)}
    (full : ∀ member ∈ members, ¬ member.2.HasEmpty)
    (known : ∀ member ∈ members, ∃ name ∈ record.shape.names, member.1.value = .ok name) :
    record.Passes .text [] (Doc.limitMembers near members) ↔
      (∀ member ∈ members, (∃ name, member.1.value = .ok name) ∧
        (member.2.limitDepth far).check = .ok ()) ∧
        record.Passes .buffer [] (Doc.limitMembers far members) := by
  rw [passes_limitMembers_iff, passes_limitMembers_iff]
  have value {member : Quoted × Doc} (listed : member ∈ members) {name : String}
      (named : member.1.value = .ok name) :
      record.inspectValue .text name (member.2.limitDepth near) = .ok () ↔
        (member.2.limitDepth far).check = .ok () ∧
          record.inspectValue .buffer name (member.2.limitDepth far) = .ok () := by
    obtain ⟨name', own, named'⟩ := known member listed
    obtain rfl : name = name' := Except.ok.inj (named.symm.trans named')
    exact inspectValue_buffers buffers enough enough' own (full member listed)
  constructor
  · rintro ⟨each, once⟩
    refine ⟨fun member listed => ?_, fun member listed => ?_, once⟩
    · obtain ⟨name, named, _, inspected⟩ := each member listed
      exact ⟨⟨name, named⟩, ((value listed named).1 inspected).1⟩
    · obtain ⟨name, named, own, inspected⟩ := each member listed
      exact ⟨name, named, own, ((value listed named).1 inspected).2⟩
  · rintro ⟨checked, each, once⟩
    refine ⟨fun member listed => ?_, once⟩
    obtain ⟨name, named, own, inspected⟩ := each member listed
    exact ⟨name, named, own, (value listed named).2 ⟨(checked member listed).2, inspected⟩⟩

theorem ofMembers_buffers {members : List (Quoted × Doc)} {ending : ObjectEnd}
    (full : ∀ member ∈ members, ¬ member.2.HasEmpty)
    (known : ∀ member ∈ members, ∃ name ∈ record.shape.names, member.1.value = .ok name)
    (value : α) : record.ofMembers .text (Doc.limitMembers near members) ending = .ok value ↔
      (Doc.object (Doc.limitMembers far members) ending).check = .ok () ∧
        record.ofMembers .buffer (Doc.limitMembers far members) ending = .ok value := by
  rw [ofMembers_eq_ok_iff, ofMembers_eq_ok_iff, Doc.check_object_iff,
    passes_buffers buffers enough enough' full known, lookup_limitMembers, lookup_limitMembers,
    Doc.limitMembers_eq_map far, List.forall_mem_map]
  have gathered (checked : ∀ member ∈ members, (∃ name, member.1.value = .ok name) ∧
      (member.2.limitDepth far).check = .ok ()) :=
    buffers.gather (lookup members) enough enough'
      (fun found => (mem_of_lookup found).elim fun _ listed => full _ listed)
      (fun found => (mem_of_lookup found).elim fun _ listed => (checked _ listed).2) value
  constructor
  · rintro ⟨closed, ⟨checked, passes⟩, done⟩
    exact ⟨⟨checked, closed⟩, closed, passes, (gathered checked).1 done⟩
  · rintro ⟨⟨checked, _⟩, closed, passes, done⟩
    exact ⟨closed, ⟨checked, passes⟩, (gathered checked).2 done⟩

/-- Items that a record takes in a text can be kept and are then taken too, with none left over. -/
theorem ofItems_buffers {items : List Doc} {ending : ListEnd}
    (full : ∀ item ∈ items, ¬ item.HasEmpty) (value : α) :
    record.ofItems .text (Doc.limitItems near items) ending = .ok value ↔
      (Doc.array (Doc.limitItems far items) ending).check = .ok () ∧
        record.ofItems .buffer (Doc.limitItems far items) ending = .ok value := by
  have dealt := fun expected => buffers.deal enough enough' full expected ending 0 value
  rw [ofItems_text_iff, ofItems_buffer_iff, Doc.check_array_iff, dealt]
  constructor
  · rintro ⟨⟨checked, kept⟩, closed⟩
    exact ⟨⟨checked, closed⟩, kept⟩
  · rintro ⟨⟨checked, closed⟩, kept⟩
    exact ⟨⟨checked, kept⟩, closed⟩

end

variable (record) in
/-- A record makes the same of a text and of a buffer, if its members do and it knows all members of
the document. -/
theorem read_buffers (buffers : record.shape.Buffers room) {doc : Doc} (full : ¬ doc.HasEmpty)
    (known : ∀ members ending, doc = .object members ending → ∀ member ∈ members,
      ∃ name ∈ record.shape.names, member.1.value = .ok name)
    {near far : Nat} (enough : room + 1 ≤ near) (enough' : room + 1 ≤ far) (value : α) :
    record.read .text (doc.limitDepth near) = .ok value ↔
      (doc.limitDepth far).check = .ok () ∧
        record.read .buffer (doc.limitDepth far) = .ok value := by
  obtain ⟨near, rfl⟩ : ∃ n, near = n + 1 := ⟨near - 1, by omega⟩
  obtain ⟨far, rfl⟩ : ∃ n, far = n + 1 := ⟨far - 1, by omega⟩
  have inner : room ≤ near := by omega
  have inner' : room ≤ far := by omega
  cases doc with
  | object members ending =>
    exact ofMembers_buffers buffers inner inner'
      (fun member listed empty => full (.member ending listed empty)) (known members ending rfl)
      value
  | array items ending =>
    exact ofItems_buffers buffers inner inner'
      (fun item listed empty => full (.item ending listed empty)) value
  | deep container => exact ⟨nofun, fun both => nomatch both.1⟩
  | null | bool _ | number _ | string _ | broken _ =>
    exact ⟨fun done => absurd done mismatch_ne_ok, fun both => absurd both.2 mismatch_ne_ok⟩

end Record

end RulesText.Format
