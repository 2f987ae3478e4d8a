import RulesText.Format.Tagged
import RulesText.Proofs.Printing

/-!
# Written members are read back

The members of a record are written in the order of its shape, some of them left out. What is read
back from each of them determines the record that is read back from the whole object, wherever it
is read from.
-/

namespace RulesText.Format
open RulesText.Json

variable {α β : Type} {room : Nat}

/-- A written value is read back as a value, from a text or a buffer, if at most `room` containers
may be nested. -/
structure Returns (room : Nat) (read : Reader α) (written : Json) (value : α) : Prop where
  fits : written.Fits room
  reads : ∀ source, read source written.toDoc = .ok value

/-- A written value is read back from its text, on one line or laid out over lines. -/
theorem Returns.ofText {read : Reader α} {written : Json} {value : α}
    (returns : Returns Doc.maxDepth read written value) :
    read.ofText written.compact = .ok value ∧ read.ofText written.pretty = .ok value := by
  rw [ofText_compact read returns.fits, ofText_pretty read returns.fits]
  exact ⟨returns.reads .text, returns.reads .text⟩

/-! ## Scalars -/

theorem returns_uint32 (value : UInt32) : Returns room uint32 (.ofUInt32 value) value := by
  have bound := value.toNat_lt
  have inside : InRange value.toNat := by
    unfold InRange
    omega
  have high : (value.toNat : Int) ≤ 4294967295 := by omega
  refine ⟨.int inside, fun source => ?_⟩
  simp [uint32, integer, ofUInt32, toDoc, Numeral.ofNumber, value_ofInt inside, high,
    bind, Except.bind, pure, Except.pure]

theorem returns_int32 (value : Int32) : Returns room int32 (.ofInt32 value) value := by
  have low := value.le_toInt
  have high := value.toInt_lt
  have inside : InRange value.toInt := by
    unfold InRange
    omega
  have bounded : (-2147483648 : Int) ≤ value.toInt ∧ value.toInt ≤ 2147483647 := by omega
  refine ⟨.int inside, fun source => ?_⟩
  simp [int32, integer, ofInt32, toDoc, Numeral.ofNumber, value_ofInt inside, bounded,
    bind, Except.bind, pure, Except.pure]

theorem returns_boolean (value : Bool) : Returns room boolean (.bool value) value :=
  ⟨.bool value, fun _ => rfl⟩

theorem returns_string (text : String) : Returns room string (.string text) text :=
  ⟨.string text, fun _ => Quoted.value_ofText text⟩

theorem find_spelling {κ : Type} [Vocabulary κ] (w : κ) :
    (Vocabulary.find (Vocabulary.spelling w) : Except Fault κ) = .ok w := by
  unfold Vocabulary.find
  rw [Vocabulary.find?_spelling]
  rfl

theorem returns_word {κ : Type} [Vocabulary κ] (w : κ) : Returns room word (wordJson w) w := by
  refine ⟨.string _, fun source => ?_⟩
  cases source <;> simp [word, wordJson, toDoc, find_spelling, bind, Except.bind]

/-! ## Compounds -/

/-- What is not null is read back where null is allowed. -/
theorem Returns.nullable {read : Reader α} {written : Json} {value : α}
    (returns : Returns room read written value) (present : written ≠ .null) :
    Returns room (nullable read) written (some value) := by
  refine ⟨returns.fits, fun source => ?_⟩
  have inner := returns.reads source
  cases written with
  | null => exact absurd rfl present
  | _ =>
    simp only [toDoc] at inner
    simp [Format.nullable, toDoc, inner, pure, Except.pure, bind, Except.bind]

theorem mapM_itemDocs {read : Reader β} {write : α → Json} {after : α → β} {source : Source}
    {values : List α} (each : ∀ a ∈ values, read source (write a).toDoc = .ok (after a)) :
    (itemDocs (values.map write)).mapM (read source) = .ok (values.map after) := by
  induction values with
  | nil => rfl
  | cons a values ih =>
    have first := each a List.mem_cons_self
    have others := ih fun b member => each b (List.mem_cons_of_mem a member)
    rw [List.map_cons, itemDocs, List.mapM_cons, first, others]
    rfl

/-- A list is read back item by item. -/
theorem returns_list {read : Reader β} {write : α → Json} {after : α → β} (values : List α)
    (each : ∀ a ∈ values, Returns room read (write a) (after a)) :
    Returns (room + 1) (list read) (.array (values.map write)) (values.map after) := by
  constructor
  · refine .array fun item member => ?_
    obtain ⟨a, listed, rfl⟩ := List.mem_map.1 member
    exact (each a listed).fits
  · intro source
    have items := mapM_itemDocs fun a listed => (each a listed).reads source
    rw [toDoc, list, items]
    rfl

/-! ## Members -/

/-- How the members of a shape are written, in order, and the value that is read back: each member
is written under its name, or left out if it has a value without being written. -/
inductive Written (room : Nat) : {α : Type} → Shape α → List (String × Json) → α → Prop
  | value {α : Type} (a : α) : Written room (.value a) [] a
  | given {α β : Type} {field : Field α} {rest : Shape (α → β)} {written : Json} {a : α}
    {members : List (String × Json)} {build : α → β} (returns : Returns room field.read written a)
    (more : Written room rest members build) :
    Written room (.member field rest) ((field.name, written) :: members) (build a)
  | omitted {α β : Type} {field : Field α} {rest : Shape (α → β)} {a : α}
    {members : List (String × Json)} {build : α → β} (absent : field.absent = some a)
    (more : Written room rest members build) : Written room (.member field rest) members (build a)

namespace Written

/-! ## Writing shapes -/

theorem map {shape : Shape α} {members : List (String × Json)} {a : α} (build : α → β)
    (written : Written room shape members a) :
    Written room (build <$> shape) members (build a) := by
  show Written room (shape.map build) members (build a)
  induction written generalizing β with
  | value a => exact .value (build a)
  | given returns _ ih => exact .given returns (ih (build ∘ ·))
  | omitted absent _ ih => exact .omitted absent (ih (build ∘ ·))

theorem append {γ : Type} {shape : Shape α} {next : Shape β} {members others : List (String × Json)}
    {a : α} {b : β} (build : α → β → γ) (written : Written room shape members a)
    (written' : Written room next others b) :
    Written room (shape.append build next) (members ++ others) (build a b) := by
  induction written generalizing γ with
  | value a => exact written'.map (build a)
  | given returns _ ih => exact .given returns (ih fun f b a => build (f a) b)
  | omitted absent _ ih => exact .omitted absent (ih fun f b a => build (f a) b)

theorem seq {shape : Shape (α → β)} {next : Shape α} {members others : List (String × Json)}
    {f : α → β} {a : α} (written : Written room shape members f)
    (written' : Written room next others a) :
    Written room (shape <*> next) (members ++ others) (f a) :=
  written.append (fun f a => f a) written'

theorem required {read : Reader α} {written : Json} {a : α} (name : String)
    (returns : Returns room read written a) :
    Written room (.required name read) [(name, written)] a :=
  .given returns (.value id)

theorem optional {read : Reader β} {write : α → Json} {after : α → β} (name : String)
    (value : Option α) (returns : ∀ a, Returns room read (write a) (after a))
    (nonnull : ∀ a, write a ≠ .null) :
    Written room (.optional name read) (present name write value) (value.map after) := by
  cases value with
  | none => exact .omitted rfl (.value id)
  | some a =>
    exact .given ((returns a).nullable (nonnull a))
      (.value id)

/-- A member whose value is read back as it was, if it is written. -/
theorem optional_self {read : Reader α} {write : α → Json} (name : String) (value : Option α)
    (returns : ∀ a, Returns room read (write a) a) (nonnull : ∀ a, write a ≠ .null) :
    Written room (.optional name read) (present name write value) value := by
  have written := Written.optional name value returns nonnull
  rwa [Option.map_id'] at written

theorem defaulted {read : Reader α} {written : Json} {a : α} (name : String) (absent : α)
    (returns : Returns room read written a) :
    Written room (.defaulted name read absent) [(name, written)] a :=
  .given returns (.value id)

theorem flag (name : String) (value : Bool) :
    Written room (.defaulted name boolean false) (flag name value) value := by
  cases value with
  | false => exact .omitted rfl (.value id)
  | true => exact .defaulted name false (returns_boolean true)

/-! ## Reading written members -/

variable {shape : Shape α} {members : List (String × Json)} {value : α}

theorem names (written : Written room shape members value) :
    (members.map Prod.fst).Sublist shape.names := by
  induction written with
  | value a => exact List.Sublist.refl _
  | given _ _ ih => exact ih.cons_cons _
  | omitted _ _ ih => exact ih.cons _

theorem fits (written : Written room shape members value) :
    ∀ member ∈ members, member.2.Fits room := by
  induction written with
  | value a => simp
  | given returns _ ih =>
    intro member listed
    rcases List.mem_cons.1 listed with rfl | more
    · exact returns.fits
    · exact ih member more
  | omitted _ _ ih => exact ih

theorem lookup_unnamed (written : Written room shape members value) {name : String}
    (other : name ∉ shape.names) : members.lookup name = none := by
  rw [List.lookup_eq_none_iff]
  intro member listed
  have named := written.names.subset (List.mem_map_of_mem listed)
  simp only [ne_eq, bne_iff_ne]
  rintro rfl
  exact other named

end Written

/-- Only the names of the shape are looked up. -/
theorem Shape.gather_congr {source : Source} {shape : Shape α} {find find' : String → Option Doc}
    (same : ∀ name ∈ shape.names, find name = find' name) :
    shape.gather source find = shape.gather source find' := by
  induction shape with
  | value a => rfl
  | member field rest ih =>
    have others := ih fun name listed => same name (List.mem_cons_of_mem field.name listed)
    rw [gather, gather, same field.name List.mem_cons_self, others]

/-- The members are gathered to the value that is read back. -/
theorem Written.gather {shape : Shape α} {members : List (String × Json)} {value : α}
    (written : Written room shape members value) (distinct : shape.names.Nodup) (source : Source) :
    shape.gather source (fun name => (members.lookup name).map toDoc) = .ok value := by
  induction written with
  | value a => rfl
  | @given α β field rest written a members build returns more ih =>
    obtain ⟨fresh, distinct⟩ := List.nodup_cons.1 distinct
    -- The first member hides none of the later ones, whose names differ from its own.
    have others : rest.gather source
        (fun name => (((field.name, written) :: members).lookup name).map toDoc) = .ok build := by
      rw [← ih distinct]
      refine Shape.gather_congr fun name listed => ?_
      have different : (name == field.name) = false := by
        simp only [beq_eq_false_iff_ne, ne_eq]
        rintro rfl
        exact fresh listed
      rw [List.lookup_cons, different]
    rw [Shape.gather, others, List.lookup_cons_self]
    simp [Field.take, returns.reads source, bind, Except.bind, pure, Except.pure]
  | @omitted α β field rest a members build absent more ih =>
    obtain ⟨fresh, distinct⟩ := List.nodup_cons.1 distinct
    rw [Shape.gather, ih distinct, more.lookup_unnamed fresh]
    simp [Field.take, absent, bind, Except.bind, pure, Except.pure]

/-- The value of each written member passes the reader of the member with its name. -/
theorem Written.probe {shape : Shape α} {members : List (String × Json)} {value : α}
    (written : Written room shape members value) (distinct : shape.names.Nodup) (source : Source) :
    ∀ member ∈ members, ∃ probe, shape.probe? source member.1 = some probe ∧
      probe member.2.toDoc = .ok () := by
  induction written with
  | value a => simp
  | @given α β field rest written a members build returns more ih =>
    obtain ⟨fresh, distinct⟩ := List.nodup_cons.1 distinct
    intro member listed
    rcases List.mem_cons.1 listed with rfl | later
    · refine ⟨_, if_pos rfl, ?_⟩
      simp [returns.reads source, bind, Except.bind, pure, Except.pure]
    · have named := more.names.subset (List.mem_map_of_mem later)
      have different : field.name ≠ member.1 := fun same => fresh (same ▸ named)
      rw [Shape.probe?, if_neg different]
      exact ih distinct member later
  | @omitted α β field rest a members build absent more ih =>
    obtain ⟨fresh, distinct⟩ := List.nodup_cons.1 distinct
    intro member listed
    have named := more.names.subset (List.mem_map_of_mem listed)
    have different : field.name ≠ member.1 := fun same => fresh (same ▸ named)
    rw [Shape.probe?, if_neg different]
    exact ih distinct member listed

theorem lookup_cons (key : Quoted) (doc : Doc) (members : List (Quoted × Doc)) (name : String) :
    lookup ((key, doc) :: members) name =
      if key.is name then some doc else lookup members name := by
  simp only [lookup, List.find?_cons]
  cases key.is name <;> rfl

theorem lookup_memberDocs (members : List (String × Json)) (name : String) :
    lookup (memberDocs members) name = (members.lookup name).map toDoc := by
  induction members with
  | nil => rfl
  | cons member members ih =>
    obtain ⟨key, value⟩ := member
    rw [memberDocs, lookup_cons, List.lookup_cons, Quoted.is_ofText, Bool.beq_comm, ih]
    cases name == key <;> rfl

/-- Members with distinct names pass the inspection if each passes the reader of its name. -/
theorem Record.inspect_memberDocs {record : Record α} {source : Source}
    {members : List (String × Json)} {seen : List String}
    (named : ∀ member ∈ members, member.1 ∈ record.shape.names ∧ member.1 ∉ seen)
    (distinct : (members.map Prod.fst).Nodup)
    (probed : ∀ member ∈ members, ∃ probe, record.shape.probe? source member.1 = some probe ∧
      probe member.2.toDoc = .ok ()) :
    record.inspect source seen (memberDocs members) .closed = .ok () := by
  induction members generalizing seen with
  | nil => rfl
  | cons member members ih =>
    obtain ⟨name, value⟩ := member
    obtain ⟨fresh, distinct⟩ := List.nodup_cons.1 distinct
    obtain ⟨known, unseen⟩ := named (name, value) List.mem_cons_self
    obtain ⟨probe, found, passed⟩ := probed (name, value) List.mem_cons_self
    have allowed : record.allow seen name = .ok () := by
      unfold allow
      rw [if_pos known, if_neg unseen]
      rfl
    have inspected : record.inspectValue source name value.toDoc = .ok () := by
      unfold inspectValue
      rw [found]
      exact passed
    have others : record.inspect source (name :: seen) (memberDocs members) .closed = .ok () := by
      refine ih ?_ distinct fun other listed => probed other (List.mem_cons_of_mem _ listed)
      intro other listed
      obtain ⟨known', unseen'⟩ := named other (List.mem_cons_of_mem _ listed)
      refine ⟨known', ?_⟩
      simp only [List.mem_cons, not_or]
      refine ⟨?_, unseen'⟩
      intro same
      have member : other.1 ∈ members.map Prod.fst := List.mem_map_of_mem listed
      exact fresh (same ▸ member)
    rw [memberDocs, inspect, Quoted.value_ofText]
    simp only [bind, Except.bind, allowed, inspected, others]

/-! ## Reading written records -/

variable {members : List (String × Json)} {value : α}

/-- The members that a record was written with make the value that is read back. -/
theorem Written.ofMembers {record : Record α} (written : Written room record.shape members value)
    (distinct : record.shape.names.Nodup) (source : Source) :
    record.ofMembers source (memberDocs members) .closed = .ok value := by
  have inspected : record.inspect source [] (memberDocs members) .closed = .ok () := by
    refine Record.inspect_memberDocs ?_ (written.names.nodup distinct)
      (written.probe distinct source)
    intro member listed
    exact ⟨written.names.subset (List.mem_map_of_mem listed), List.not_mem_nil⟩
  have gathered : record.shape.gather source (lookup (memberDocs members)) = .ok value := by
    rw [← written.gather distinct source]
    exact Shape.gather_congr fun name _ => lookup_memberDocs members name
  simp only [Record.ofMembers, inspected, gathered, bind, Except.bind]

/-- A written record is read back. -/
theorem Written.returns {record : Record α} (written : Written room record.shape members value)
    (distinct : record.shape.names.Nodup) :
    Returns (room + 1) record.read (.object members) value :=
  ⟨.object written.fits, fun source => written.ofMembers distinct source⟩

section

variable {κ : Type} [Vocabulary κ] {record : κ → Record α} {w : κ}

theorem tagOfMembers_memberDocs {members : List (String × Json)}
    (other : tagMember ∉ members.map Prod.fst) (fits : ∀ member ∈ members, member.2.Fits room) :
    tagOfMembers (some w) (memberDocs members) .closed = .ok w := by
  induction members with
  | nil => rfl
  | cons member members ih =>
    obtain ⟨name, value⟩ := member
    simp only [List.map_cons, List.mem_cons, not_or] at other
    have checked : value.toDoc.check = .ok () := (fits (name, value) List.mem_cons_self).check
    have others := ih other.2 fun more listed => fits more (List.mem_cons_of_mem _ listed)
    rw [memberDocs, tagOfMembers, Quoted.value_ofText]
    simp [bind, Except.bind, allowTag, Ne.symm other.1, checked, others, pure, Except.pure]

theorem payload_cons (key : Quoted) (doc : Doc) (members : List (Quoted × Doc)) :
    payload ((key, doc) :: members) =
      if key.is tagMember then payload members else (key, doc) :: payload members := by
  simp only [payload, List.filter_cons]
  cases key.is tagMember <;> rfl

theorem payload_memberDocs {members : List (String × Json)}
    (other : tagMember ∉ members.map Prod.fst) :
    payload (memberDocs members) = memberDocs members := by
  induction members with
  | nil => rfl
  | cons member members ih =>
    obtain ⟨name, value⟩ := member
    simp only [List.map_cons, List.mem_cons, not_or] at other
    have different : (name == tagMember) = false := by simpa using Ne.symm other.1
    rw [memberDocs, payload_cons, Quoted.is_ofText, different, ih other.2]
    rfl

/-- A record that was written behind its tag is read back. -/
theorem Written.returns_tagged (written : Written room (record w).shape members value)
    (distinct : (tagMember :: (record w).shape.names).Nodup) (title : String) :
    Returns (room + 1) (tagged title record) (.object ((tagMember, wordJson w) :: members))
      value := by
  obtain ⟨fresh, distinct⟩ := List.nodup_cons.1 distinct
  have other : tagMember ∉ members.map Prod.fst := fun listed => fresh (written.names.subset listed)
  constructor
  · refine .object fun member listed => ?_
    rcases List.mem_cons.1 listed with rfl | later
    · exact .string _
    · exact written.fits member later
  · intro source
    have tag : tagOfMembers none (memberDocs ((tagMember, wordJson w) :: members)) .closed =
        .ok w := by
      rw [memberDocs, tagOfMembers, Quoted.value_ofText]
      simp [bind, Except.bind, allowTag, wordJson, toDoc, tagWord, find_spelling, pure, Except.pure,
        tagOfMembers_memberDocs other written.fits]
    have rest : payload (memberDocs ((tagMember, wordJson w) :: members)) = memberDocs members := by
      rw [memberDocs, payload_cons, Quoted.is_ofText, BEq.rfl, payload_memberDocs other]
      rfl
    rw [toDoc, tagged, tag, rest]
    exact written.ofMembers distinct .buffer

end

end RulesText.Format
