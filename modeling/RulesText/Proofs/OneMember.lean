import RulesText.Proofs.Places

/-!
# One member of a record

With everything else left as it is, what becomes of a record depends on the document of one member
only through the reader of that member: a value that is read there goes into the record, and a fault
that is met there is the fault of the record. This holds by name and by position, in records with
and without a tag, and of one item in a list.
-/

namespace RulesText.Json
open RulesText.Format

/-- The documents around the place of a member in a record with the given names, by name or by
position. -/
inductive Doc.Around (names : List String) (name : String) : (Doc → Doc) → Prop
  | member (before after : List (Quoted × Doc)) {key : Quoted} (named : key.value = .ok name)
    (ending : ObjectEnd) :
    Around names name fun inner => .object (before ++ (key, inner) :: after) ending
  | item {before : List Doc} (placed : names[before.length]? = some name) (after : List Doc)
    (ending : ListEnd) : Around names name fun inner => .array (before ++ inner :: after) ending

/-- A document has a text if it can be spelled. -/
theorem Doc.exists_isText_iff {doc : Doc} :
    (∃ text, doc.IsText text) ↔ ∃ body, Json.Spells doc body := by
  constructor
  · rintro ⟨_, _, body, _, _, spelled, _⟩
    exact ⟨body, spelled⟩
  · rintro ⟨body, spelled⟩
    exact ⟨String.ofList body, [], body, [], Gap.nil, spelled, Gap.nil, by simp⟩

/-- An object has a text if each of its members has one. -/
theorem Doc.exists_isText_object_iff {members : List (Quoted × Doc)} :
    (∃ text, Doc.IsText (.object members .closed) text) ↔
      ∀ member ∈ members, SpellableMember member := by
  rw [exists_isText_iff, exists_spells_object_iff, and_iff_right rfl]

/-- A text of an object is read as its members, with what is nested too deep in them cut off. -/
theorem Doc.IsText.ofText_object {members : List (Quoted × Doc)} {text : String}
    (spelled : Doc.IsText (.object members .closed) text) {α : Type} (read : Reader α) :
    read.ofText text = read .text (.object (members.map fun member =>
      (member.1, member.2.limitDepth (Doc.maxDepth - 1))) .closed) := by
  rw [spelled.ofText, ← Doc.limitMembers_eq_map]
  rfl

end RulesText.Json

namespace RulesText.Format
open RulesText.Json

variable {α β γ : Type} {source : Source}

/-! ## Members in the middle -/

theorem lookup_eq_none {members : List (Quoted × Doc)} {name : String}
    (missing : valuesOf members name = []) : lookup members name = none := by
  rw [lookup_eq_head?, missing]
  rfl

theorem payload_append (before after : List (Quoted × Doc)) :
    payload (before ++ after) = payload before ++ payload after :=
  List.filter_append before after

section

variable {before after : List (Quoted × Doc)} {key : Quoted} {name other : String}
  (named : key.value = .ok name)

include named

theorem valuesOf_middle_self (doc : Doc) : valuesOf (before ++ (key, doc) :: after) name =
    valuesOf before name ++ doc :: valuesOf after name := by
  rw [Doc.valuesOf_append, valuesOf_cons_self named]

theorem valuesOf_middle_other (different : name ≠ other) (doc : Doc) :
    valuesOf (before ++ (key, doc) :: after) other = valuesOf (before ++ after) other := by
  rw [Doc.valuesOf_append, Doc.valuesOf_append, valuesOf_cons_other named different]

theorem lookup_middle_other (different : name ≠ other) (doc : Doc) :
    lookup (before ++ (key, doc) :: after) other = lookup (before ++ after) other := by
  rw [lookup_eq_head?, lookup_eq_head?, valuesOf_middle_other named different]

/-- What stands at a name that occurs once is found there. -/
theorem lookup_middle_self {inner : Doc}
    (once : (valuesOf (before ++ (key, inner) :: after) name).length ≤ 1) (doc : Doc) :
    lookup (before ++ (key, doc) :: after) name = some doc := by
  rw [valuesOf_middle_self named, List.length_append, List.length_cons] at once
  have fresh : valuesOf before name = [] := List.length_eq_zero_iff.1 (by omega)
  rw [lookup_eq_head?, valuesOf_middle_self named, fresh]
  rfl

theorem payload_middle_other (different : name ≠ tagMember) (doc : Doc) :
    payload (before ++ (key, doc) :: after) = payload before ++ (key, doc) :: payload after := by
  rw [payload_append, payload_cons_other named doc after different]

end

theorem valuesOf_perm {members members' : List (Quoted × Doc)} (order : members.Perm members')
    (name : String) : (valuesOf members name).Perm (valuesOf members' name) :=
  (order.filter _).map _

/-- Members pass in any order. -/
theorem Record.passes_perm {record : Record α} {seen : List String}
    {members members' : List (Quoted × Doc)} (order : members.Perm members') :
    record.Passes source seen members ↔ record.Passes source seen members' := by
  have one_way {members members' : List (Quoted × Doc)} (order : members.Perm members')
      (passes : record.Passes source seen members) : record.Passes source seen members' := by
    refine ⟨fun member listed => passes.each member (order.mem_iff.2 listed), fun name own => ?_⟩
    rw [← (valuesOf_perm order name).length_eq]
    exact passes.once name own
  exact ⟨one_way order, one_way order.symm⟩

/-- A member passes among others as it does in front of them. -/
theorem Record.passes_middle {record : Record α} {before after : List (Quoted × Doc)}
    {key : Quoted} {name : String} {value : Doc} (named : key.value = .ok name) :
    record.Passes source [] (before ++ (key, value) :: after) ↔
      record.allow [] name = .ok () ∧ record.inspectValue source name value = .ok () ∧
        record.Passes source [name] (before ++ after) := by
  rw [passes_perm List.perm_middle, passes_cons named]

/-- A name of a record that was seen does not occur among members that pass. -/
theorem Record.Passes.fresh {record : Record α} {name : String} {members : List (Quoted × Doc)}
    (passes : record.Passes source [name] members) (own : name ∈ record.shape.names) :
    valuesOf members name = [] := by
  have count := passes.once name own
  rw [if_pos (List.mem_singleton_self name)] at count
  exact List.length_eq_zero_iff.1 (Nat.le_zero.1 count)

theorem Tags.perm {κ : Type} [Vocabulary κ] {members members' : List (Quoted × Doc)} {w : κ}
    (tags : Tags none members w) (order : members.Perm members') : Tags none members' w := by
  refine ⟨fun member listed => tags.each member (order.mem_iff.2 listed), ?_⟩
  obtain ⟨doc, single, read⟩ := tags.once
  have same := valuesOf_perm order tagMember
  rw [single, List.singleton_perm] at same
  exact ⟨doc, same.symm, read⟩

/-- A member that is not the tag stands anywhere among the others if it can be kept. -/
theorem tags_middle_other {κ : Type} [Vocabulary κ] {before after : List (Quoted × Doc)}
    {key : Quoted} {name : String} {value : Doc} {w : κ} (named : key.value = .ok name)
    (other : name ≠ tagMember) : Tags none (before ++ (key, value) :: after) w ↔
      value.check = .ok () ∧ Tags none (before ++ after) w := by
  rw [← tags_cons_other named other]
  exact ⟨fun tags => tags.perm List.perm_middle, fun tags => tags.perm List.perm_middle.symm⟩

/-! ## Members of a shape -/

/-- Whether a field is among the members of a shape. -/
inductive Shape.Has {β : Type} (field : Field β) : {α : Type} → Shape α → Prop
  | here {α : Type} (rest : Shape (β → α)) : Has field (.member field rest)
  | there {α γ : Type} (other : Field γ) {rest : Shape (γ → α)} (inside : Has field rest) :
    Has field (.member other rest)

namespace Shape.Has

variable {field : Field β}

theorem map {shape : Shape α} (has : shape.Has field) (build : α → γ) :
    (build <$> shape).Has field := by
  show (shape.map build).Has field
  induction has generalizing γ with
  | here rest => exact .here _
  | there other _ ih => exact .there other (ih _)

theorem append_left {δ : Type} {shape : Shape α} (has : shape.Has field) (build : α → δ → γ)
    (next : Shape δ) : (shape.append build next).Has field := by
  induction has generalizing γ with
  | here rest => exact .here _
  | there other _ ih => exact .there other (ih _)

theorem append_right {δ : Type} {next : Shape δ} (has : next.Has field) (build : α → δ → γ)
    (shape : Shape α) : (shape.append build next).Has field := by
  induction shape generalizing γ with
  | value a => exact has.map (build a)
  | member other rest ih => exact .there other (ih _)

theorem seq_left {shape : Shape (α → γ)} (has : shape.Has field) (next : Shape α) :
    (shape <*> next).Has field :=
  has.append_left _ next

theorem seq_right {next : Shape α} (has : next.Has field) (shape : Shape (α → γ)) :
    (shape <*> next).Has field :=
  has.append_right _ shape

theorem mem_names {shape : Shape α} (has : shape.Has field) : field.name ∈ shape.names := by
  induction has with
  | here rest => exact List.mem_cons_self
  | there other _ ih => exact List.mem_cons_of_mem _ ih

theorem probe? {shape : Shape α} (has : shape.Has field) (distinct : shape.names.Nodup) :
    shape.probe? source field.name = some (fun doc => do let _ ← field.read source doc) := by
  induction has with
  | here rest => exact if_pos rfl
  | there other inside ih =>
    obtain ⟨fresh, distinct⟩ := List.nodup_cons.1 distinct
    have different : other.name ≠ field.name := fun same => fresh (same ▸ inside.mem_names)
    exact (if_neg different).trans (ih distinct)

/-- What is gathered depends on the document of one member through what is taken for that member,
as long as all other documents are the same. -/
theorem gather {shape : Shape α} (has : shape.Has field) (distinct : shape.names.Nodup)
    {find : String → Option Doc} {value : α} (gathered : shape.gather source find = .ok value) :
    ∃ build : β → α, ∀ find' : String → Option Doc,
      (∀ name, name ≠ field.name → find' name = find name) →
        shape.gather source find' = build <$> field.take source (find' field.name) := by
  induction has with
  | here rest =>
    obtain ⟨fresh, _⟩ := List.nodup_cons.1 distinct
    obtain ⟨_, _, gathered⟩ := bind_eq_ok gathered
    obtain ⟨build, others, _⟩ := bind_eq_ok gathered
    refine ⟨build, fun find' agree => ?_⟩
    have same : rest.gather source find' = .ok build := by
      rw [← others]
      exact Shape.gather_congr fun name own => agree name fun first => fresh (first ▸ own)
    rw [Shape.gather, same]
    rfl
  | there other inside ih =>
    obtain ⟨fresh, distinct⟩ := List.nodup_cons.1 distinct
    have different : other.name ≠ field.name := fun same => fresh (same ▸ inside.mem_names)
    obtain ⟨a, taken, gathered⟩ := bind_eq_ok gathered
    obtain ⟨_, others, _⟩ := bind_eq_ok gathered
    obtain ⟨build, depends⟩ := ih distinct others
    refine ⟨fun b => build b a, fun find' agree => ?_⟩
    rw [Shape.gather, agree other.name different, taken, depends find' agree]
    cases field.take source (find' field.name) <;> rfl

/-- So does what is dealt by position. -/
theorem deal {shape : Shape α} (has : shape.Has field) (distinct : shape.names.Nodup)
    {expected : String} {ending : ListEnd} {index : Nat} {before after left : List Doc}
    {inner : Doc} {value : α} (placed : shape.names[before.length]? = some field.name)
    (dealt : shape.deal source expected ending index (before ++ inner :: after) =
      .ok (value, left)) :
    ∃ build : β → α, ∀ inner', shape.deal source expected ending index
      (before ++ inner' :: after) = (fun a => (build a, left)) <$> field.read source inner' := by
  induction has generalizing index before with
  | here rest =>
    obtain ⟨fresh, _⟩ := List.nodup_cons.1 distinct
    cases before with
    | nil =>
      obtain ⟨_, _, build, others, _⟩ := deal_cons_eq_ok_iff.1 dealt
      refine ⟨build, fun inner' => ?_⟩
      rw [List.nil_append, Shape.deal, others]
      rfl
    | cons first before =>
      have later : rest.names[before.length]? = some field.name := placed
      exact absurd (List.mem_of_getElem? later) fresh
  | there other inside ih =>
    obtain ⟨fresh, distinct⟩ := List.nodup_cons.1 distinct
    cases before with
    | nil =>
      have same : other.name = field.name := Option.some.inj placed
      exact absurd (same ▸ inside.mem_names) fresh
    | cons first before =>
      obtain ⟨a, read, _, others, _⟩ := deal_cons_eq_ok_iff.1 dealt
      obtain ⟨build, depends⟩ := ih distinct placed others
      refine ⟨fun b => build b a, fun inner' => ?_⟩
      rw [List.cons_append, Shape.deal, read, depends]
      cases field.read source inner' <;> rfl

end Shape.Has

/-! ## Records -/

namespace Record

variable {record : Record α} {field : Field β} {value : α}

/-- Members that passed so far are passed whatever follows. -/
theorem inspect_front {seen : List String} {before members : List (Quoted × Doc)}
    {ending : ObjectEnd} (done : record.inspect source seen (before ++ members) ending = .ok ()) :
    ∃ seen', ∀ members', record.inspect source seen (before ++ members') ending =
      record.inspect source seen' members' ending := by
  induction before generalizing seen with
  | nil => exact ⟨seen, fun _ => rfl⟩
  | cons member before ih =>
    obtain ⟨key, doc⟩ := member
    obtain ⟨name, named, done⟩ := bind_eq_ok done
    obtain ⟨allowed, done⟩ := seq_eq_ok_iff.1 done
    obtain ⟨inspected, done⟩ := seq_eq_ok_iff.1 done
    obtain ⟨seen', front⟩ := ih done
    refine ⟨seen', fun members' => ?_⟩
    rw [← front members', List.cons_append, inspect, named]
    exact congrArg₂ (fun first second : Except Fault Unit => first >>= fun _ => second >>= fun _ =>
      record.inspect source (name :: seen) (before ++ members') ending) allowed inspected

/-- Members with one in the middle that passes up to its value fail only there. -/
theorem inspect_middle {before after : List (Quoted × Doc)} {key : Quoted} {name : String}
    (named : key.value = .ok name) {inner : Doc} {ending : ObjectEnd}
    (done : record.inspect source [] (before ++ (key, inner) :: after) ending = .ok ())
    (inner' : Doc) : record.inspect source [] (before ++ (key, inner') :: after) ending =
      record.inspectValue source name inner' := by
  obtain ⟨seen, front⟩ := inspect_front done
  rw [front, inspect, named] at done
  obtain ⟨allowed, done⟩ := seq_eq_ok_iff.1 done
  obtain ⟨_, others⟩ := seq_eq_ok_iff.1 done
  have step : record.inspect source seen ((key, inner') :: after) ending =
      (record.allow seen name >>= fun _ => record.inspectValue source name inner' >>= fun _ =>
        record.inspect source (name :: seen) after ending) := by
    rw [inspect, named]
    rfl
  rw [front, step, allowed, others]
  cases record.inspectValue source name inner' <;> rfl

variable (has : record.shape.Has field) (distinct : record.shape.names.Nodup)

include has distinct

theorem inspectValue_own (doc : Doc) : record.inspectValue source field.name doc =
    (field.read source doc >>= fun _ => pure ()) := by
  rw [inspectValue, has.probe? distinct]

theorem ofMembers_around {before after : List (Quoted × Doc)} {key : Quoted}
    (named : key.value = .ok field.name) {ending : ObjectEnd} {inner : Doc}
    (done : record.ofMembers source (before ++ (key, inner) :: after) ending = .ok value) :
    ∃ build : β → α, ∀ inner', record.ofMembers source (before ++ (key, inner') :: after) ending =
      build <$> field.read source inner' := by
  obtain ⟨closed, passes, gathered⟩ := ofMembers_eq_ok_iff.1 done
  have inspects := inspect_middle named (inspect_eq_ok_iff.2 ⟨closed, passes⟩)
  have once := passes.once field.name has.mem_names
  obtain ⟨build, depends⟩ := has.gather distinct gathered
  refine ⟨build, fun inner' => ?_⟩
  have agree : ∀ name, name ≠ field.name → lookup (before ++ (key, inner') :: after) name =
      lookup (before ++ (key, inner) :: after) name := fun name different => by
    rw [lookup_middle_other named different.symm, lookup_middle_other named different.symm]
  rw [ofMembers, inspects, inspectValue_own has distinct, depends _ agree,
    lookup_middle_self named (by simpa using once) inner', Field.take]
  cases field.read source inner' <;> rfl

theorem ofItems_around {before after : List Doc} {ending : ListEnd} {inner : Doc}
    (placed : record.shape.names[before.length]? = some field.name)
    (done : record.ofItems source (before ++ inner :: after) ending = .ok value) :
    ∃ build : β → α, ∀ inner', record.ofItems source (before ++ inner' :: after) ending =
      build <$> field.read source inner' := by
  obtain ⟨⟨built, left⟩, dealt, done⟩ := bind_eq_ok done
  obtain ⟨finished, _⟩ := seq_eq_ok_iff.1 done
  obtain ⟨build, depends⟩ := has.deal distinct placed dealt
  refine ⟨build, fun inner' => ?_⟩
  have finished' :
      record.finish source (before ++ inner' :: after).length left ending = .ok () := by
    rw [← finished, List.length_append, List.length_append, List.length_cons, List.length_cons]
  rw [ofItems, depends]
  cases field.read source inner' with
  | error fault => rfl
  | ok a =>
    exact congrArg (fun ends : Except Fault Unit => ends >>= fun _ => .ok (build a)) finished'

/-- A record depends on the document at one place through the reader of the member there. -/
theorem read_around {fill : Doc → Doc} (around : Doc.Around record.shape.names field.name fill)
    {inner : Doc} (done : record.read source (fill inner) = .ok value) :
    ∃ build : β → α, ∀ inner', record.read source (fill inner') =
      build <$> field.read source inner' := by
  cases around with
  | member before after named ending => exact ofMembers_around has distinct named done
  | item placed after ending => exact ofItems_around has distinct placed done

end Record

/-! ## Records with a tag -/

section

variable {κ : Type} [Vocabulary κ] {record : κ → Record α} {title : String}

/-- The tag of an object is that of its kind. -/
theorem hasKind_of_tags {members : List (Quoted × Doc)} {ending : ObjectEnd} {w : κ}
    (tags : Tags none members w) : (Doc.object members ending).HasKind w := by
  obtain ⟨doc, single, read⟩ := tags.once
  obtain ⟨quoted, rfl, spelled⟩ := tagWord_eq_ok_iff.1 read
  refine ⟨quoted, ?_, spelled⟩
  rw [Doc.member?, lookup_eq_head?, single]
  rfl

/-- What is read from an object with a tag is the record of its kind, from the members behind it. -/
theorem of_tagged_object {members : List (Quoted × Doc)} {ending : ObjectEnd} {value : α}
    (done : tagged title record source (.object members ending) = .ok value) :
    ending = .closed ∧ ∃ w, Tags none members w ∧
      (record w).ofMembers .buffer (payload members) .closed = .ok value := by
  obtain ⟨w, found, kept⟩ := bind_eq_ok done
  obtain ⟨closed, tags⟩ := tagOfMembers_eq_ok_iff.1 found
  exact ⟨closed, w, tags, kept⟩

/-- An object with a tag is read as the record of its kind, whatever that is. -/
theorem tagged_object {members : List (Quoted × Doc)} {w : κ} (tags : Tags none members w) :
    tagged title record source (.object members .closed) =
      (record w).ofMembers .buffer (payload members) .closed := by
  rw [tagged, tagOfMembers_eq_ok_iff.2 ⟨rfl, tags⟩]
  rfl

/-- What is read by position is the record of the kind in front, from the items behind it. -/
theorem of_tagged_array {tag : Doc} {items : List Doc} {ending : ListEnd} {value : α}
    (done : tagged title record source (.array (tag :: items) ending) = .ok value) :
    ending = .closed ∧ (∀ item ∈ items, item.check = .ok ()) ∧ ∃ w, tagWord tag = .ok w ∧
      (record w).ofItems .buffer items .closed = .ok value := by
  obtain ⟨w, read, kept⟩ := bind_eq_ok done
  obtain ⟨checked, kept⟩ := seq_eq_ok_iff.1 kept
  obtain ⟨ends, kept⟩ := seq_eq_ok_iff.1 kept
  exact ⟨ending.check_eq_ok_iff.1 ends, Doc.checkItems_iff.1 checked, w, read, kept⟩

/-- Items behind a tag are read as the record of its kind, whatever that is. -/
theorem tagged_array {tag : Doc} {items : List Doc} {w : κ} (read : tagWord tag = .ok w)
    (checked : ∀ item ∈ items, item.check = .ok ()) :
    tagged title record source (.array (tag :: items) .closed) =
      (record w).ofItems .buffer items .closed := by
  rw [tagged, read]
  exact congrArg (fun kept : Except Fault Unit => kept >>= fun _ =>
    (record w).ofItems .buffer items .closed) (Doc.checkItems_iff.2 checked)

/-- Without one of its members an object has the same tag, and is gathered from the others. -/
theorem tagged_without {before after : List (Quoted × Doc)} {key : Quoted} {name : String}
    {doc : Doc} (named : key.value = .ok name) (other : name ≠ tagMember)
    (own : ∀ w, name ∈ (record w).shape.names) {value : α}
    (done : tagged title record source (.object (before ++ (key, doc) :: after) .closed) =
      .ok value) : ∃ w find find', (record w).shape.gather .buffer find = .ok value ∧
        find' name = none ∧ (∀ name', name' ≠ name → find' name' = find name') ∧
          tagged title record source (.object (before ++ after) .closed) =
            (record w).shape.gather .buffer find' := by
  obtain ⟨w, tags, passes, gathered⟩ := tagged_object_eq_ok_iff.1 done
  obtain ⟨_, tags⟩ := (tags_middle_other named other).1 tags
  rw [payload_middle_other named other] at passes gathered
  obtain ⟨_, _, passes⟩ := (Record.passes_middle named).1 passes
  have fresh := passes.fresh (own w)
  refine ⟨w, _, lookup (payload before ++ payload after), gathered, lookup_eq_none fresh,
    fun name' different => ?_, ?_⟩
  · rw [lookup_middle_other named different.symm]
  · have inspected := Record.inspect_eq_ok_iff.2
      ⟨rfl, (Record.passes_unseen fresh).1 passes⟩
    rw [tagged_object tags, payload_append, Record.ofMembers, inspected]
    rfl

/-- A record with a tag depends on the document at one place through the reader of the member there,
if it can be kept. -/
theorem tagged_around {w : κ} {field : Field β} (has : (record w).shape.Has field)
    (distinct : (tagMember :: (record w).shape.names).Nodup) {fill : Doc → Doc}
    (around : Doc.Around (tagMember :: (record w).shape.names) field.name fill) {inner : Doc}
    {value : α} (typed : (fill inner).HasKind w)
    (done : tagged title record source (fill inner) = .ok value) :
    inner.check = .ok () ∧ ∃ build : β → α, ∀ inner', inner'.check = .ok () →
      tagged title record source (fill inner') = build <$> field.read .buffer inner' := by
  obtain ⟨untagged, distinct⟩ := List.nodup_cons.1 distinct
  have other : field.name ≠ tagMember := fun same => untagged (same ▸ has.mem_names)
  cases around with
  | member before after named ending =>
    obtain ⟨rfl, w', tags, kept⟩ := of_tagged_object done
    obtain rfl := (hasKind_of_tags tags).unique typed
    obtain ⟨checked, others⟩ := (tags_middle_other named other).1 tags
    rw [payload_middle_other named other] at kept
    obtain ⟨build, depends⟩ := Record.ofMembers_around has distinct named kept
    refine ⟨checked, build, fun inner' checked' => ?_⟩
    rw [tagged_object ((tags_middle_other named other).2 ⟨checked', others⟩),
      payload_middle_other named other, depends]
  | @item before placed after ending =>
    cases before with
    | nil => exact absurd (Option.some.inj placed).symm other
    | cons tag before =>
      obtain ⟨rfl, each, w', read, kept⟩ := of_tagged_array done
      obtain ⟨quoted, rfl, spelled⟩ := tagWord_eq_ok_iff.1 read
      obtain rfl : w' = w := Doc.HasKind.unique ⟨quoted, rfl, spelled⟩ typed
      obtain ⟨build, depends⟩ := Record.ofItems_around has distinct placed kept
      refine ⟨each inner (by simp), build, fun inner' checked' => ?_⟩
      rw [← depends]
      exact tagged_array read (forall_mem_exchange each fun _ => checked')

end

/-! ## Lists -/

theorem mapM_around {read : Doc → Except Fault α} {before after : List Doc} {inner : Doc}
    {values : List α} (done : (before ++ inner :: after).mapM read = .ok values) :
    ∃ build : α → List α, ∀ inner', (before ++ inner' :: after).mapM read =
      build <$> read inner' := by
  induction before generalizing values with
  | nil =>
    obtain ⟨_, _, done⟩ := bind_eq_ok (List.mapM_cons.symm.trans done)
    obtain ⟨others, rest, _⟩ := bind_eq_ok done
    refine ⟨fun a => a :: others, fun inner' => ?_⟩
    rw [List.nil_append, List.mapM_cons, rest]
    rfl
  | cons first before ih =>
    obtain ⟨a, head, done⟩ := bind_eq_ok (List.mapM_cons.symm.trans done)
    obtain ⟨_, rest, _⟩ := bind_eq_ok done
    obtain ⟨build, depends⟩ := ih rest
    refine ⟨fun b => a :: build b, fun inner' => ?_⟩
    rw [List.cons_append, List.mapM_cons, head, depends]
    cases read inner' <;> rfl

/-- A list depends on one of its items through the reader of the items. -/
theorem list_around {read : Reader α} {before after : List Doc} {ending : ListEnd} {inner : Doc}
    {values : List α}
    (done : list read source (.array (before ++ inner :: after) ending) = .ok values) :
    ∃ build : α → List α, ∀ inner', list read source (.array (before ++ inner' :: after) ending) =
      build <$> read source inner' := by
  obtain ⟨_, each, done⟩ := bind_eq_ok done
  obtain ⟨ends, _⟩ := seq_eq_ok_iff.1 done
  obtain ⟨build, depends⟩ := mapM_around each
  refine ⟨build, fun inner' => ?_⟩
  rw [list, depends]
  cases read source inner' with
  | error fault => rfl
  | ok a => exact congrArg (fun ends : Except Fault Unit => ends >>= fun _ => .ok (build a)) ends

end RulesText.Format
