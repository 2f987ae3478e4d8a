import RulesText.Proofs.Reorder

/-!
# Readers that do not mind the order of members

Untagged records are read member by member, and tagged ones are kept and read once their tag is
known, and both may be nested in one another. So what a reader makes of a document in another order
is carried from the members of a record to the record, once for each of the two mechanisms. With it
goes that no fault of a text is left unseen: only then is there a document to put into order.
-/

namespace RulesText.Json
open Relation

/-! ## Documents with one order only -/

/-- Whether nothing in a document can be put into another order. -/
def Doc.Fixed (doc : Doc) : Prop := ∀ doc', Doc.Reorders doc doc' → doc' = doc

namespace Doc

theorem Fixed.related {doc doc' : Doc} (fixed : doc.Fixed) (related : ReflGen Reorders doc doc') :
    doc' = doc := by
  cases related with
  | refl => rfl
  | single step => exact fixed doc' step

theorem fixed_null : Doc.null.Fixed := nofun

theorem fixed_bool (value : Bool) : (Doc.bool value).Fixed := nofun

theorem fixed_number (numeral : Numeral) : (Doc.number numeral).Fixed := nofun

theorem fixed_string (quoted : Quoted) : (Doc.string quoted).Fixed := nofun

theorem fixed_empty (ending : ObjectEnd) : (Doc.object [] ending).Fixed := by
  intro doc' step
  obtain ⟨members', rfl, rearranged⟩ := step.object
  cases members' with
  | nil => rfl
  | cons member members' =>
    obtain ⟨_, impossible, _⟩ := rearranged.each member List.mem_cons_self
    cases impossible

theorem fixed_single {value : Doc} (inside : value.Fixed) (key : Quoted) (ending : ObjectEnd) :
    (Doc.object [(key, value)] ending).Fixed := by
  intro doc' step
  generalize whole : Doc.object [(key, value)] ending = doc at step
  cases step with
  | members _ order =>
    cases whole
    rw [List.singleton_perm.1 order]
  | member before after _ _ step =>
    obtain ⟨same, rfl⟩ := Doc.object.inj whole
    rcases List.singleton_eq_append_iff.1 same with ⟨rfl, single⟩ | ⟨_, impossible⟩
    · cases single
      rw [inside _ step]
    · cases impossible
  | item _ _ _ _ => cases whole
  | deep _ => cases whole

/-- A document that stands for a number or a tag. -/
inductive Leaf : Doc → Prop
  | number (numeral : Numeral) : Leaf (.number numeral)
  | string (quoted : Quoted) : Leaf (.string quoted)
  | tag (key : Quoted) (ending : ObjectEnd) : Leaf (.object [(key, .null)] ending)

theorem Leaf.fixed {doc : Doc} (leaf : doc.Leaf) : doc.Fixed := by
  cases leaf with
  | number numeral => exact fixed_number numeral
  | string quoted => exact fixed_string quoted
  | tag key ending => exact fixed_single fixed_null key ending

end Doc

end RulesText.Json

namespace RulesText.Format
open RulesText.Json Relation

variable {α β γ : Type}

/-! ## Readers -/

/-- Whether a reader leaves no fault of a text unseen, and reads the same value whatever the order
of the members. -/
structure Reader.Unordered (read : Reader α) : Prop where
  whole : ∀ {doc value}, read .text doc = .ok value → doc.skim = .ok ()
  keeps : ∀ {source doc doc' value}, Doc.Reorders doc doc' → read source doc = .ok value →
    read source doc' = .ok value

theorem Reader.Unordered.related {read : Reader α} (unordered : read.Unordered) {source : Source}
    {doc doc' : Doc} {value : α} (related : ReflGen Doc.Reorders doc doc')
    (done : read source doc = .ok value) : read source doc' = .ok value := by
  cases related with
  | refl => exact done
  | single step => exact unordered.keeps step done

/-- A reader of documents with one order only. -/
theorem Reader.Unordered.of_fixed {read : Reader α}
    (whole : ∀ {doc value}, read .text doc = .ok value → doc.skim = .ok ())
    (fixed : ∀ {source doc value}, read source doc = .ok value → doc.Fixed) : read.Unordered := by
  refine ⟨whole, fun {source doc doc' value} step done => ?_⟩
  rw [fixed done doc' step]
  exact done

/-- Whatever becomes of an integer, it is read from a numeral. -/
theorem integer_eq_ok {low high : Int} {type : String} {doc : Doc} {build : Int → α} {value : α}
    (done : (do return build (← integer low high type doc)) = .ok value) :
    ∃ numeral, doc = .number numeral := by
  obtain ⟨_, read, _⟩ := bind_eq_ok done
  unfold integer at read
  split at read
  · exact ⟨_, rfl⟩
  · exact absurd read mismatch_ne_ok

theorem boolean_eq_ok {source : Source} {doc : Doc} {value : Bool}
    (done : boolean source doc = .ok value) : ∃ b, doc = .bool b := by
  unfold boolean at done
  split at done
  · exact ⟨_, rfl⟩
  · exact absurd done mismatch_ne_ok

theorem string_eq_ok {source : Source} {doc : Doc} {text : String}
    (done : string source doc = .ok text) : ∃ quoted, doc = .string quoted ∧
      quoted.value = .ok text := by
  unfold string at done
  split at done
  · exact ⟨_, rfl, done⟩
  · exact absurd done mismatch_ne_ok

theorem skim_of_value {quoted : Quoted} {text : String} (spelled : quoted.value = .ok text) :
    (Doc.string quoted).skim = .ok () :=
  (Doc.skim_string_iff quoted).2 (Quoted.closed_of_value spelled)

theorem unordered_integer {low high : Int} {type : String} {build : Int → α} :
    Reader.Unordered fun _ doc => do return build (← integer low high type doc) := by
  refine .of_fixed (fun done => ?_) fun done => ?_
  · obtain ⟨_, rfl⟩ := integer_eq_ok done
    rfl
  · obtain ⟨numeral, rfl⟩ := integer_eq_ok done
    exact Doc.fixed_number numeral

theorem unordered_uint32 : uint32.Unordered := unordered_integer

theorem unordered_int32 : int32.Unordered := unordered_integer

theorem unordered_boolean : boolean.Unordered := by
  refine .of_fixed (fun done => ?_) fun done => ?_
  · obtain ⟨_, rfl⟩ := boolean_eq_ok done
    rfl
  · obtain ⟨b, rfl⟩ := boolean_eq_ok done
    exact Doc.fixed_bool b

theorem unordered_string : string.Unordered := by
  refine .of_fixed (fun done => ?_) fun done => ?_
  · obtain ⟨_, rfl, spelled⟩ := string_eq_ok done
    exact skim_of_value spelled
  · obtain ⟨quoted, rfl, _⟩ := string_eq_ok done
    exact Doc.fixed_string quoted

/-! ## Words and tags -/

theorem unit_eq_ok {doc : Doc} (done : unit doc = .ok ()) : doc = .null := by
  unfold unit at done
  split at done
  · rfl
  · exact absurd done mismatch_ne_ok

section

variable {κ : Type} [Vocabulary κ]

theorem wordOfMembers_eq_ok {members : List (Quoted × Doc)} {ending : ObjectEnd} {w : κ}
    (done : wordOfMembers members ending = .ok w) :
    ∃ key name, members = [(key, .null)] ∧ ending = .closed ∧ key.value = .ok name := by
  unfold wordOfMembers at done
  split at done
  · obtain ⟨_, _, done⟩ := bind_eq_ok done
    obtain ⟨_, _, impossible⟩ := bind_eq_ok done
    cases impossible
  · obtain ⟨_, impossible⟩ := seq_eq_ok_iff.1 done
    cases impossible
  · rename_i key value rest
    obtain ⟨name, named, done⟩ := bind_eq_ok done
    obtain ⟨_, _, done⟩ := bind_eq_ok done
    obtain ⟨null, done⟩ := seq_eq_ok_iff.1 done
    obtain rfl := unit_eq_ok null
    split at done
    · exact ⟨key, name, rfl, rfl, named⟩
    · cases done
    · cases done

theorem word_fixed {source : Source} {doc : Doc} {w : κ} (done : word source doc = .ok w) :
    doc.Fixed := by
  cases source with
  | text =>
    unfold word at done
    dsimp only at done
    split at done
    · exact Doc.fixed_string _
    · obtain ⟨key, _, rfl, rfl, _⟩ := wordOfMembers_eq_ok done
      exact Doc.fixed_single Doc.fixed_null key _
    all_goals cases done
  | buffer =>
    -- An empty object may stand for null here, and has one order only as well.
    unfold word at done
    dsimp only at done
    split at done
    · exact Doc.fixed_string _
    · exact Doc.fixed_single (Doc.fixed_empty _) _ _
    · obtain ⟨_, _, done⟩ := bind_eq_ok done
      obtain ⟨_, _, done⟩ := bind_eq_ok done
      obtain ⟨null, _⟩ := seq_eq_ok_iff.1 done
      obtain rfl := unit_eq_ok null
      exact Doc.fixed_single Doc.fixed_null _ _
    · cases done
    · exact absurd done mismatch_ne_ok

theorem unordered_word : (word : Reader κ).Unordered := by
  refine .of_fixed (fun {doc w} done => ?_) word_fixed
  unfold word at done
  dsimp only at done
  split at done
  · obtain ⟨_, spelled, _⟩ := bind_eq_ok done
    exact skim_of_value spelled
  · obtain ⟨key, _, rfl, rfl, named⟩ := wordOfMembers_eq_ok done
    refine Doc.skim_object_iff.2 ⟨fun member listed => ?_, rfl⟩
    rw [List.mem_singleton.1 listed]
    exact ⟨Quoted.closed_of_value named, rfl⟩
  all_goals cases done

theorem leaf_of_string? {doc : Doc} {text : String} (read : string? doc = some text) :
    doc.Leaf := by
  unfold string? at read
  split at read
  · exact .string _
  · cases read

theorem leaf_of_word? {doc : Doc} {w : κ} (read : word? doc = some w) : doc.Leaf := by
  unfold word? at read
  split at read
  · exact .string _
  · exact .tag _ _
  · cases read

theorem leaf_of_tag? {doc : Doc} {tag : OpenTag κ} (read : tag? doc = some tag) : doc.Leaf := by
  unfold tag? at read
  rw [Option.or_eq_some_iff] at read
  rcases read with known | ⟨_, other⟩
  · obtain ⟨_, word, _⟩ := Option.map_eq_some_iff.1 known
    exact leaf_of_word? word
  · obtain ⟨_, text, _⟩ := Option.map_eq_some_iff.1 other
    exact leaf_of_string? text

/-- A value with several readings, each of which is kept. -/
theorem unordered_alternatives {type : String} {read? : Doc → Option α}
    (keeps : ∀ {doc doc' a}, Doc.Reorders doc doc' → read? doc = some a → read? doc' = some a) :
    (alternatives type read?).Unordered := by
  constructor
  · intro doc value done
    obtain ⟨checked, _⟩ := seq_eq_ok_iff.1 done
    exact Doc.skim_of_check doc checked
  · intro source doc doc' value step done
    obtain ⟨checked, done⟩ := seq_eq_ok_iff.1 done
    refine seq_eq_ok_iff.2 ⟨step.check checked, ?_⟩
    split at done
    · rename_i a read
      rw [keeps step read]
      exact done
    · cases done

theorem unordered_alternatives_leaf {type : String} {read? : Doc → Option α}
    (leaf : ∀ {doc a}, read? doc = some a → doc.Leaf) :
    (alternatives type read?).Unordered := by
  refine unordered_alternatives fun {doc doc' a} step read => ?_
  rw [(leaf read).fixed doc' step]
  exact read

theorem unordered_openTag (type : String) : (openTag type : Reader (OpenTag κ)).Unordered :=
  unordered_alternatives_leaf leaf_of_tag?

end

/-! ## Compounds -/

theorem Reader.Unordered.bind {read : Reader α} (unordered : read.Unordered)
    (after : α → Except Fault β) :
    Reader.Unordered fun source doc => read source doc >>= after := by
  constructor
  · intro doc value done
    obtain ⟨_, inner, _⟩ := bind_eq_ok done
    exact unordered.whole inner
  · intro source doc doc' value step done
    obtain ⟨a, inner, done⟩ := bind_eq_ok done
    exact bind_eq_ok_iff.2 ⟨a, unordered.keeps step inner, done⟩

/-- What is put into another order is a container, and a container is never taken for null. -/
theorem nullable_reorders {read : Reader α} {source : Source} {doc doc' : Doc}
    (step : Doc.Reorders doc doc') : nullable read source doc' = some <$> read source doc' := by
  cases step <;> rfl

theorem Reader.Unordered.nullable {read : Reader α} (unordered : read.Unordered) :
    (nullable read).Unordered := by
  constructor
  · intro doc value done
    unfold Format.nullable at done
    split at done
    · rfl
    · cases done
    · obtain ⟨_, inner, _⟩ := bind_eq_ok done
      exact unordered.whole inner
  · intro source doc doc' value step done
    rw [nullable_reorders step]
    unfold Format.nullable at done
    split at done
    · cases step
    · cases step
    · obtain ⟨a, inner, same⟩ := bind_eq_ok done
      cases same
      rw [unordered.keeps step inner]
      rfl

theorem mapM_related {read : Reader α} (unordered : read.Unordered) {source : Source}
    {items items' : List Doc} (related : List.Forall₂ (ReflGen Doc.Reorders) items items')
    {values : List α} (done : items.mapM (read source) = .ok values) :
    items'.mapM (read source) = .ok values := by
  induction related generalizing values with
  | nil => exact done
  | cons first _ ih =>
    rw [List.mapM_cons] at done ⊢
    obtain ⟨a, inner, done⟩ := bind_eq_ok done
    obtain ⟨others, rest, done⟩ := bind_eq_ok done
    rw [unordered.related first inner]
    refine bind_eq_ok_iff.2 ⟨a, rfl, ?_⟩
    rw [ih rest]
    exact done

theorem mapM_whole {read : Reader α} (unordered : read.Unordered) {items : List Doc}
    {values : List α} (done : items.mapM (read .text) = .ok values) :
    ∀ item ∈ items, item.skim = .ok () := by
  induction items generalizing values with
  | nil => simp
  | cons item items ih =>
    rw [List.mapM_cons] at done
    obtain ⟨_, inner, done⟩ := bind_eq_ok done
    obtain ⟨_, rest, _⟩ := bind_eq_ok done
    exact List.forall_mem_cons.2 ⟨unordered.whole inner, ih rest⟩

theorem Reader.Unordered.list {read : Reader α} (unordered : read.Unordered) :
    (list read).Unordered := by
  constructor
  · intro doc values done
    unfold Format.list at done
    split at done
    · rename_i items ending
      obtain ⟨_, read, done⟩ := bind_eq_ok done
      obtain ⟨ends, _⟩ := seq_eq_ok_iff.1 done
      exact Doc.skim_array_iff.2 ⟨mapM_whole unordered read, ending.check_eq_ok_iff.1 ends⟩
    · cases done
    · exact absurd done mismatch_ne_ok
  · intro source doc doc' values step done
    unfold Format.list at done
    split at done
    · obtain ⟨items', rfl, related⟩ := step.array
      obtain ⟨_, read, done⟩ := bind_eq_ok done
      exact bind_eq_ok_iff.2 ⟨_, mapM_related unordered related read, done⟩
    · cases done
    · exact absurd done mismatch_ne_ok

/-! ## Shapes -/

/-- Whether the readers of all members of a shape are unordered. -/
def Shape.Unordered {α : Type} : Shape α → Prop
  | .value _ => True
  | .member field rest => field.read.Unordered ∧ rest.Unordered

namespace Shape.Unordered

theorem map {shape : Shape α} (unordered : shape.Unordered) (build : α → β) :
    (build <$> shape).Unordered := by
  show (shape.map build).Unordered
  induction shape generalizing β with
  | value a => exact unordered
  | member field rest ih => exact ⟨unordered.1, ih unordered.2 _⟩

theorem append {shape : Shape α} {next : Shape β} (unordered : shape.Unordered)
    (unordered' : next.Unordered) (build : α → β → γ) : (shape.append build next).Unordered := by
  induction shape generalizing γ with
  | value a => exact unordered'.map (build a)
  | member field rest ih => exact ⟨unordered.1, ih unordered.2 _⟩

theorem seq {shape : Shape (α → β)} {next : Shape α} (unordered : shape.Unordered)
    (unordered' : next.Unordered) : (shape <*> next).Unordered :=
  unordered.append unordered' fun f a => f a

theorem required {read : Reader α} (name : String) (unordered : read.Unordered) :
    (Shape.required name read).Unordered :=
  ⟨unordered, trivial⟩

theorem optional {read : Reader α} (name : String) (unordered : read.Unordered) :
    (Shape.optional name read).Unordered :=
  ⟨unordered.nullable, trivial⟩

theorem defaulted {read : Reader α} (name : String) (absent : α) (unordered : read.Unordered) :
    (Shape.defaulted name read absent).Unordered :=
  ⟨unordered, trivial⟩

/-! ### By name -/

theorem probe? {shape : Shape α} (unordered : shape.Unordered) {source : Source} {name : String}
    {probe : Doc → Except Fault Unit} (found : shape.probe? source name = some probe) :
    ∃ (β : Type) (read : Reader β), read.Unordered ∧
      ∀ doc, probe doc = .ok () ↔ ∃ b, read source doc = .ok b := by
  induction shape with
  | value a => cases found
  | member field rest ih =>
    rw [Shape.probe?] at found
    split at found
    · cases found
      exact ⟨_, field.read, unordered.1, fun _ => discard_eq_ok_iff⟩
    · exact ih unordered.2 found

theorem gather {shape : Shape α} (unordered : shape.Unordered) {source : Source}
    {find find' : String → Option Doc} {value : α}
    (related : ∀ name ∈ shape.names, Option.Rel (ReflGen Doc.Reorders) (find name) (find' name))
    (done : shape.gather source find = .ok value) : shape.gather source find' = .ok value := by
  induction shape with
  | value a => exact done
  | member field rest ih =>
    obtain ⟨own, others⟩ := List.forall_mem_cons.1 related
    obtain ⟨a, taken, done⟩ := bind_eq_ok done
    obtain ⟨build, gathered, done⟩ := bind_eq_ok done
    refine bind_eq_ok_iff.2 ⟨a, ?_, bind_eq_ok_iff.2 ⟨build, ih unordered.2 others gathered, done⟩⟩
    generalize find field.name = found at own taken
    generalize find' field.name = found' at own
    cases own with
    | some step => exact unordered.1.related step taken
    | none => exact taken

/-! ### By position -/

theorem deal {shape : Shape α} (unordered : shape.Unordered) {source : Source}
    {expected : String} {ending : ListEnd} {index : Nat} {items items' left : List Doc} {value : α}
    (related : List.Forall₂ (ReflGen Doc.Reorders) items items')
    (done : shape.deal source expected ending index items = .ok (value, left)) :
    ∃ left', shape.deal source expected ending index items' = .ok (value, left') ∧
      List.Forall₂ (ReflGen Doc.Reorders) left left' := by
  induction shape generalizing index items items' left with
  | value a =>
    unfold Shape.deal at done
    cases done
    exact ⟨items', by unfold Shape.deal; rfl, related⟩
  | member field rest ih =>
    cases related with
    | nil => exact ⟨left, done, List.forall₂_same.2 fun _ _ => .refl⟩
    | cons first more =>
      obtain ⟨a, read, done⟩ := bind_eq_ok done
      obtain ⟨⟨build, left⟩, dealt, same⟩ := bind_eq_ok done
      cases same
      obtain ⟨left', again, related'⟩ := ih unordered.2 more dealt
      refine ⟨left', bind_eq_ok_iff.2 ⟨a, unordered.1.related first read, ?_⟩, related'⟩
      exact bind_eq_ok_iff.2 ⟨_, again, rfl⟩

theorem deal_whole {shape : Shape α} (unordered : shape.Unordered) {expected : String}
    {ending : ListEnd} {index : Nat} {items : List Doc} {value : α}
    (done : shape.deal .text expected ending index items = .ok (value, [])) :
    ∀ item ∈ items, item.skim = .ok () := by
  induction shape generalizing index items with
  | value a =>
    unfold Shape.deal at done
    cases done
    simp
  | member field rest ih =>
    cases items with
    | nil => simp
    | cons item items =>
      obtain ⟨_, read, done⟩ := bind_eq_ok done
      obtain ⟨⟨build, left⟩, dealt, same⟩ := bind_eq_ok done
      cases same
      exact List.forall_mem_cons.2 ⟨unordered.1.whole read, ih unordered.2 dealt⟩

end Shape.Unordered

/-! ## Records -/

namespace Record

variable {record : Record α}

theorem inspectValue_related (unordered : record.shape.Unordered) {source : Source} {name : String}
    {value value' : Doc} (related : ReflGen Doc.Reorders value value')
    (done : record.inspectValue source name value = .ok ()) :
    record.inspectValue source name value' = .ok () := by
  unfold inspectValue at done ⊢
  cases found : record.shape.probe? source name with
  | some probe =>
    rw [found] at done
    obtain ⟨_, read, unordered, probes⟩ := unordered.probe? found
    obtain ⟨b, inner⟩ := (probes value).1 done
    exact (probes value').2 ⟨b, unordered.related related inner⟩
  | none =>
    rw [found] at done
    cases related with
    | refl => exact done
    | single step => exact step.skim done

theorem inspectValue_whole (unordered : record.shape.Unordered) {name : String} {value : Doc}
    (done : record.inspectValue .text name value = .ok ()) : value.skim = .ok () := by
  unfold inspectValue at done
  cases found : record.shape.probe? .text name with
  | some probe =>
    rw [found] at done
    obtain ⟨_, read, unordered, probes⟩ := unordered.probe? found
    obtain ⟨b, inner⟩ := (probes value).1 done
    exact unordered.whole inner
  | none =>
    rw [found] at done
    exact done

theorem Passes.rearranged (unordered : record.shape.Unordered) {source : Source}
    {members members' : List (Quoted × Doc)} (passes : record.Passes source [] members)
    (rearranged : Doc.Rearranged members members') : record.Passes source [] members' := by
  constructor
  · intro member' listed
    obtain ⟨member, among, key, related⟩ := rearranged.each member' listed
    obtain ⟨name, named, known, inspected⟩ := passes.each member among
    exact ⟨name, key ▸ named, known, inspectValue_related unordered related inspected⟩
  · intro name own
    rw [rearranged.length]
    exact passes.once name own

/-- A record by name is built from the same values. -/
theorem ofMembers_rearranged (unordered : record.shape.Unordered) {source : Source}
    {members members' : List (Quoted × Doc)} {ending : ObjectEnd} {value : α}
    (rearranged : Doc.Rearranged members members')
    (done : record.ofMembers source members ending = .ok value) :
    record.ofMembers source members' ending = .ok value := by
  obtain ⟨closed, passes, gathered⟩ := ofMembers_eq_ok_iff.1 done
  refine ofMembers_eq_ok_iff.2 ⟨closed, passes.rearranged unordered rearranged, ?_⟩
  -- Only members of the record are gathered, and of these none occurs twice.
  refine unordered.gather (fun name own => rearranged.lookup ?_) gathered
  simpa using passes.once name own

/-- A record by position is built from the same values. -/
theorem ofItems_related (unordered : record.shape.Unordered) {source : Source}
    {items items' : List Doc} {ending : ListEnd} {value : α}
    (related : List.Forall₂ (ReflGen Doc.Reorders) items items')
    (done : record.ofItems source items ending = .ok value) :
    record.ofItems source items' ending = .ok value := by
  obtain ⟨⟨built, left⟩, dealt, done⟩ := bind_eq_ok done
  obtain ⟨finished, done⟩ := seq_eq_ok_iff.1 done
  obtain ⟨left', again, related'⟩ := unordered.deal related dealt
  refine bind_eq_ok_iff.2 ⟨(built, left'), again, seq_eq_ok_iff.2 ⟨?_, done⟩⟩
  cases related' with
  | nil => rwa [← related.length_eq]
  | cons _ _ => cases source <;> cases finished

theorem ofMembers_whole (unordered : record.shape.Unordered) {members : List (Quoted × Doc)}
    {ending : ObjectEnd} {value : α} (done : record.ofMembers .text members ending = .ok value) :
    (Doc.object members ending).skim = .ok () := by
  obtain ⟨closed, passes, _⟩ := ofMembers_eq_ok_iff.1 done
  refine Doc.skim_object_iff.2 ⟨fun member listed => ?_, closed⟩
  obtain ⟨_, named, _, inspected⟩ := passes.each member listed
  exact ⟨Quoted.closed_of_value named, inspectValue_whole unordered inspected⟩

theorem finish_text {length : Nat} {left : List Doc} {ending : ListEnd}
    (done : record.finish .text length left ending = .ok ()) : left = [] ∧ ending = .closed := by
  cases left with
  | nil =>
    cases ending with
    | closed => exact ⟨rfl, rfl⟩
    | _ => cases done
  | cons item left => cases done

theorem ofItems_whole (unordered : record.shape.Unordered) {items : List Doc} {ending : ListEnd}
    {value : α} (done : record.ofItems .text items ending = .ok value) :
    (Doc.array items ending).skim = .ok () := by
  obtain ⟨⟨built, left⟩, dealt, done⟩ := bind_eq_ok done
  obtain ⟨finished, _⟩ := seq_eq_ok_iff.1 done
  obtain ⟨rfl, closed⟩ := finish_text finished
  exact Doc.skim_array_iff.2 ⟨unordered.deal_whole dealt, closed⟩

/-- A record is unordered if its members are. -/
theorem unordered (unordered : record.shape.Unordered) : record.read.Unordered := by
  constructor
  · intro doc value done
    unfold Record.read at done
    split at done
    · exact ofMembers_whole unordered done
    · exact ofItems_whole unordered done
    · cases done
    · exact absurd done mismatch_ne_ok
  · intro source doc doc' value step done
    unfold Record.read at done
    split at done
    · obtain ⟨members', rfl, rearranged⟩ := step.object
      exact ofMembers_rearranged unordered rearranged done
    · obtain ⟨items', rfl, related⟩ := step.array
      exact ofItems_related unordered related done
    · cases done
    · exact absurd done mismatch_ne_ok

end Record

/-! ## Records with a tag -/

section

variable {κ : Type} [Vocabulary κ] {record : κ → Record α}

theorem tagWord_related {doc doc' : Doc} {w : κ} (related : ReflGen Doc.Reorders doc doc')
    (done : tagWord doc = .ok w) : tagWord doc' = .ok w := by
  obtain ⟨quoted, rfl, _⟩ := tagWord_eq_ok_iff.1 done
  rw [(Doc.fixed_string quoted).related related]
  exact done

theorem check_related {doc doc' : Doc} (related : ReflGen Doc.Reorders doc doc')
    (checked : doc.check = .ok ()) : doc'.check = .ok () := by
  cases related with
  | refl => exact checked
  | single step => exact step.check checked

theorem check_items_related {items items' : List Doc}
    (related : List.Forall₂ (ReflGen Doc.Reorders) items items')
    (checked : ∀ item ∈ items, item.check = .ok ()) : ∀ item ∈ items', item.check = .ok () := by
  induction related with
  | nil => exact checked
  | cons first _ ih =>
    rw [List.forall_mem_cons] at checked ⊢
    exact ⟨check_related first checked.1, ih checked.2⟩

theorem Tags.rearranged {members members' : List (Quoted × Doc)} {w : κ}
    (tags : Tags none members w) (rearranged : Doc.Rearranged members members') :
    Tags none members' w := by
  constructor
  · intro member' listed
    obtain ⟨member, among, key, related⟩ := rearranged.each member' listed
    obtain ⟨name, named, checked⟩ := tags.each member among
    exact ⟨name, key ▸ named, fun other => check_related related (checked other)⟩
  · obtain ⟨doc, alone, read⟩ := tags.once
    obtain ⟨doc', alone', related⟩ := rearranged.single alone
    exact ⟨doc', alone', tagWord_related related read⟩

theorem skim_of_tagWord {doc : Doc} {w : κ} (done : tagWord doc = .ok w) : doc.skim = .ok () := by
  obtain ⟨quoted, rfl, spelled⟩ := tagWord_eq_ok_iff.1 done
  exact skim_of_value spelled

theorem Tags.skim {members : List (Quoted × Doc)} {w : κ} (tags : Tags none members w) :
    ∀ member ∈ members, member.1.ending = .closed ∧ member.2.skim = .ok () := by
  intro member listed
  obtain ⟨name, named, checked⟩ := tags.each member listed
  refine ⟨Quoted.closed_of_value named, ?_⟩
  by_cases tag : name = tagMember
  · subst tag
    obtain ⟨doc, alone, read⟩ := tags.once
    have value := mem_valuesOf_iff.2 ⟨member.1, listed, named⟩
    rw [alone] at value
    rw [List.mem_singleton.1 value]
    exact skim_of_tagWord read
  · exact Doc.skim_of_check member.2 (checked tag)

/-- A record that its tag selects is unordered if every record of the family is. -/
theorem unordered_tagged (title : String) (unordered : ∀ w, (record w).shape.Unordered) :
    (tagged title record).Unordered := by
  constructor
  · intro doc value done
    unfold tagged at done
    split at done
    · obtain ⟨w, found, _⟩ := bind_eq_ok done
      obtain ⟨closed, tags⟩ := tagOfMembers_eq_ok_iff.1 found
      exact Doc.skim_object_iff.2 ⟨tags.skim, closed⟩
    · obtain ⟨_, impossible⟩ := seq_eq_ok_iff.1 done
      cases impossible
    · rename_i tag items ending
      obtain ⟨w, read, done⟩ := bind_eq_ok done
      obtain ⟨checked, done⟩ := seq_eq_ok_iff.1 done
      obtain ⟨ends, _⟩ := seq_eq_ok_iff.1 done
      have others : ∀ item ∈ items, item.skim = .ok () := fun item listed =>
        item.skim_of_check (Doc.checkItems_iff.1 checked item listed)
      exact Doc.skim_array_iff.2
        ⟨List.forall_mem_cons.2 ⟨skim_of_tagWord read, others⟩, ending.check_eq_ok_iff.1 ends⟩
    · cases done
    · exact absurd done mismatch_ne_ok
  · intro source doc doc' value step done
    unfold tagged at done
    split at done
    · obtain ⟨members', rfl, rearranged⟩ := step.object
      obtain ⟨w, found, done⟩ := bind_eq_ok done
      obtain ⟨closed, tags⟩ := tagOfMembers_eq_ok_iff.1 found
      have found' := tagOfMembers_eq_ok_iff.2 ⟨closed, tags.rearranged rearranged⟩
      exact bind_eq_ok_iff.2
        ⟨w, found', Record.ofMembers_rearranged (unordered w) rearranged.payload done⟩
    · obtain ⟨_, impossible⟩ := seq_eq_ok_iff.1 done
      cases impossible
    · obtain ⟨items', rfl, related⟩ := step.array
      obtain ⟨w, read, done⟩ := bind_eq_ok done
      obtain ⟨checked, done⟩ := seq_eq_ok_iff.1 done
      obtain ⟨ends, done⟩ := seq_eq_ok_iff.1 done
      obtain ⟨tag', items', first, more, rfl⟩ := List.forall₂_cons_left_iff.1 related
      refine bind_eq_ok_iff.2 ⟨w, tagWord_related first read, seq_eq_ok_iff.2 ⟨?_, ?_⟩⟩
      · exact Doc.checkItems_iff.2 (check_items_related more (Doc.checkItems_iff.1 checked))
      · exact seq_eq_ok_iff.2 ⟨ends, Record.ofItems_related (unordered w) more done⟩
    · cases done
    · exact absurd done mismatch_ne_ok

end

end RulesText.Format
