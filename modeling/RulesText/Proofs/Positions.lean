import RulesText.Describe.Config
import RulesText.Proofs.OneMember

/-!
# By position and by name

A record by position is the record by name whose keys are the first names of its shape, in their
order: one is read exactly if the other is, and as the same value. The members that come last are
left out of both alike. In a record with a tag, the tag comes first.
-/

namespace RulesText.Format
open RulesText.Json

variable {α β : Type} {source : Source}

theorem Field.take_none_eq_ok_iff {field : Field α} {a : α} :
    field.take source none = .ok a ↔ field.absent = some a := by
  cases absent : field.absent <;> simp [take, absent, mismatch, pure, Except.pure]

theorem Shape.gather_member_eq_ok_iff {field : Field α} {rest : Shape (α → β)}
    {find : String → Option Doc} {value : β} :
    (Shape.member field rest).gather source find = .ok value ↔
      ∃ a, field.take source (find field.name) = .ok a ∧
        ∃ build, rest.gather source find = .ok build ∧ build a = value := by
  simp only [gather, bind_eq_ok_iff, pure, Except.pure, Except.ok.injEq]

/-- Members without a tag are all behind it. -/
theorem payload_of_untagged {members : List (Quoted × Doc)}
    (fresh : valuesOf members tagMember = []) : payload members = members := by
  refine List.filter_eq_self.2 fun member listed => ?_
  have behind := mem_payload_iff.2 ⟨listed, valuesOf_eq_nil_iff.1 fresh member listed⟩
  exact (List.mem_filter.1 behind).2

/-- Whether the keys of members are the first of some names, in order. -/
def Leading (names : List String) (members : List (Quoted × Doc)) : Prop :=
  members.map (·.1.value) <+: names.map .ok

namespace Leading

variable {names : List String} {members : List (Quoted × Doc)}

theorem cons_iff {name : String} {key : Quoted} {doc : Doc} :
    Leading (name :: names) ((key, doc) :: members) ↔
      key.value = .ok name ∧ Leading names members :=
  List.cons_prefix_cons

theorem eq_nil (leading : Leading [] members) : members = [] :=
  List.map_eq_nil_iff.1 (List.prefix_nil.1 leading)

theorem mem_names (leading : Leading names members) {member : Quoted × Doc}
    (listed : member ∈ members) : ∃ name ∈ names, member.1.value = .ok name := by
  obtain ⟨name, own, same⟩ := List.mem_map.1 (leading.subset (List.mem_map_of_mem listed))
  exact ⟨name, own, same.symm⟩

theorem valuesOf_eq_nil (leading : Leading names members) {name : String} (foreign : name ∉ names) :
    valuesOf members name = [] := by
  refine valuesOf_eq_nil_iff.2 fun member listed named => ?_
  obtain ⟨own, known, same⟩ := leading.mem_names listed
  rw [named] at same
  exact foreign (Except.ok.inj same ▸ known)

/-- No name of the record occurs twice. -/
theorem once (leading : Leading names members) (distinct : names.Nodup) (name : String) :
    (valuesOf members name).length ≤ 1 := by
  induction members generalizing names with
  | nil => exact Nat.zero_le 1
  | cons member members ih =>
    obtain ⟨key, doc⟩ := member
    cases names with
    | nil => cases leading.eq_nil
    | cons first names =>
      obtain ⟨fresh, distinct⟩ := List.nodup_cons.1 distinct
      obtain ⟨named, others⟩ := cons_iff.1 leading
      by_cases same : first = name
      · subst same
        rw [valuesOf_cons_self named, others.valuesOf_eq_nil fresh]
        exact Nat.le_refl 1
      · rw [valuesOf_cons_other named same]
        exact ih others distinct

theorem lookup_eq_some (leading : Leading names members) (distinct : names.Nodup) {key : Quoted}
    {doc : Doc} (listed : (key, doc) ∈ members) {name : String} (named : key.value = .ok name) :
    lookup members name = some doc := by
  have among : doc ∈ valuesOf members name := mem_valuesOf_iff.2 ⟨key, listed, named⟩
  obtain ⟨only, single⟩ := List.length_eq_one_iff.1
    (Nat.le_antisymm (leading.once distinct name) (List.length_pos_of_mem among))
  rw [single, List.mem_singleton] at among
  rw [lookup_eq_head?, single, among]
  rfl

/-- What is dealt by position is what is gathered by name. -/
theorem deal_iff {shape : Shape α} (leading : Leading shape.names members)
    (distinct : shape.names.Nodup) {expected : String} {index : Nat} {value : α} :
    shape.deal source expected .closed index (members.map Prod.snd) = .ok (value, []) ↔
      shape.gather source (lookup members) = .ok value := by
  induction shape generalizing members index with
  | value a =>
    rw [leading.eq_nil]
    simp [Shape.deal, Shape.gather, pure, Except.pure]
  | member field rest ih =>
    obtain ⟨fresh, distinct⟩ := List.nodup_cons.1 distinct
    rw [Shape.gather_member_eq_ok_iff]
    cases members with
    | nil =>
      have closed : ListEnd.closed.check = .ok () := rfl
      have absent : lookup [] field.name = none := rfl
      have others (build) := @ih [] List.nil_prefix distinct (index + 1) build
      rw [List.map_nil] at others
      simp only [List.map_nil, Shape.deal_nil_eq_ok_iff, closed, true_and, others, absent,
        Field.take_none_eq_ok_iff]
    | cons member members =>
      obtain ⟨key, doc⟩ := member
      obtain ⟨named, following⟩ := cons_iff.1 leading
      have others : rest.gather source (lookup ((key, doc) :: members)) =
          rest.gather source (lookup members) :=
        Shape.gather_congr fun name own => lookup_cons_other named doc members fun first =>
          fresh (first ▸ own)
      simp only [List.map_cons, Shape.deal_cons_eq_ok_iff, ih following distinct, others,
        lookup_cons_self named, Field.take]

/-- Members that lead the names of a record pass if the record can be gathered from them. -/
theorem passes {record : Record α} (leading : Leading record.shape.names members)
    (distinct : record.shape.names.Nodup) {value : α}
    (gathered : record.shape.gather source (lookup members) = .ok value) :
    record.Passes source [] members := by
  refine ⟨fun (key, doc) listed => ?_, fun name _ => leading.once distinct name⟩
  obtain ⟨name, own, named⟩ := leading.mem_names listed
  obtain ⟨slot, among, rfl⟩ := (Shape.mem_names_iff source).1 own
  have filled := Shape.exists_gather_iff.1 ⟨value, gathered⟩ slot among
  rw [leading.lookup_eq_some distinct listed named] at filled
  exact ⟨slot.name, named, .inl own, (Record.inspectValue_slot distinct among doc).2 filled⟩

theorem ofMembers_iff {record : Record α} (leading : Leading record.shape.names members)
    (distinct : record.shape.names.Nodup) {value : α} :
    record.ofMembers source members .closed = .ok value ↔
      record.shape.gather source (lookup members) = .ok value :=
  ⟨fun done => (Record.ofMembers_eq_ok_iff.1 done).2.2, fun gathered =>
    Record.ofMembers_eq_ok_iff.2 ⟨rfl, leading.passes distinct gathered, gathered⟩⟩

theorem ofItems_iff {record : Record α} (leading : Leading record.shape.names members)
    (distinct : record.shape.names.Nodup) {value : α} :
    record.ofItems source (members.map Prod.snd) .closed = .ok value ↔
      record.ofMembers source members .closed = .ok value := by
  rw [leading.ofMembers_iff distinct]
  cases source with
  | text => rw [Record.ofItems_text_iff, and_iff_left rfl, leading.deal_iff distinct]
  | buffer => rw [Record.ofItems_buffer_iff, leading.deal_iff distinct]

/-- A record by position is read as the record by name. -/
theorem read_iff {record : Record α} (leading : Leading record.shape.names members)
    (distinct : record.shape.names.Nodup) (value : α) :
    record.read source (.array (members.map Prod.snd) .closed) = .ok value ↔
      record.read source (.object members .closed) = .ok value :=
  leading.ofItems_iff distinct

/-- So is a record with a tag, the tag coming first. -/
theorem tagged_iff {κ : Type} [Vocabulary κ] {record : κ → Record α} {title : String} {w : κ}
    (leading : Leading (tagMember :: (record w).shape.names) members)
    (distinct : (tagMember :: (record w).shape.names).Nodup)
    (typed : (Doc.object members .closed).HasKind w) (value : α) :
    tagged title record source (.array (members.map Prod.snd) .closed) = .ok value ↔
      tagged title record source (.object members .closed) = .ok value := by
  obtain ⟨untagged, distinct⟩ := List.nodup_cons.1 distinct
  cases members with
  | nil =>
    obtain ⟨_, place, _⟩ := typed
    cases place
  | cons member members =>
    obtain ⟨key, tag⟩ := member
    obtain ⟨named, following⟩ := cons_iff.1 leading
    have ⟨quoted, place, spelled⟩ := typed
    obtain rfl : tag = .string quoted := by
      rw [Doc.member?, lookup_cons_self named] at place
      exact Option.some.inj place
    have read : tagWord (.string quoted) = .ok w := tagWord_eq_ok_iff.2 ⟨quoted, rfl, spelled⟩
    have fresh := following.valuesOf_eq_nil untagged
    have behind : payload ((key, .string quoted) :: members) = members := by
      rw [payload_cons, if_pos ((key.is_eq_true_iff tagMember).2 named), payload_of_untagged fresh]
    have tags : Tags none ((key, .string quoted) :: members) w ↔
        ∀ item ∈ members.map Prod.snd, item.check = .ok () := by
      rw [tags_cons_tag named, List.forall_mem_map]
      constructor
      · rintro ⟨-, _, -, each, -⟩ member listed
        obtain ⟨name, own, named⟩ := following.mem_names listed
        obtain ⟨name', named', checked⟩ := each member listed
        obtain rfl : name = name' := Except.ok.inj (named.symm.trans named')
        exact checked fun tagged => untagged (tagged ▸ own)
      · intro checked
        refine ⟨rfl, w, read, fun member listed => ?_, rfl, fresh⟩
        obtain ⟨name, _, named⟩ := following.mem_names listed
        exact ⟨name, named, fun _ => checked member listed⟩
    constructor
    · intro done
      obtain ⟨_, checked, w', read', kept⟩ := of_tagged_array done
      obtain rfl : w = w' := Except.ok.inj (read.symm.trans read')
      rw [tagged_object (tags.2 checked), behind]
      exact (following.ofItems_iff distinct).1 kept
    · intro done
      obtain ⟨_, w', tags', _⟩ := of_tagged_object done
      obtain rfl : w' = w := (hasKind_of_tags tags').unique typed
      rw [tagged_object tags', behind] at done
      rw [List.map_cons, tagged_array read (tags.1 tags')]
      exact (following.ofItems_iff distinct).2 done

end Leading

/-- Leading members stay so when containers in them are cut off. -/
theorem Leading.limit {names : List String} {members : List (Quoted × Doc)}
    (leading : Leading names members) (room : Nat) :
    Leading names (Doc.limitMembers room members) := by
  rw [Leading, Doc.limitMembers_eq_map, List.map_map]
  exact leading

/-- Whether members are read alike by position and, in any order, by name, wherever they stand and
as texts of their own. -/
structure Reader.Alike (read : Reader α) (members : List (Quoted × Doc)) : Prop where
  placed : ∀ members', members.Perm members' → ∀ source value,
    read source (.array (members.map Prod.snd) .closed) = .ok value ↔
      read source (.object members' .closed) = .ok value
  texts : ∀ members', members.Perm members' → ∀ text text',
    Doc.IsText (.array (members.map Prod.snd) .closed) text →
    Doc.IsText (.object members' .closed) text' →
      ∀ value, read.ofText text = .ok value ↔ read.ofText text' = .ok value

/-- Members that are read alike in their order are read alike as texts, if that does not depend on
whether containers in them are cut off. -/
theorem Reader.Unordered.alike {read : Reader α} (unordered : read.Unordered)
    (Fits : List (Quoted × Doc) → Prop)
    (limit : ∀ {members}, Fits members → ∀ room, Fits (Doc.limitMembers room members))
    (placed : ∀ {members}, Fits members → ∀ source value,
      read source (.array (members.map Prod.snd) .closed) = .ok value ↔
        read source (.object members .closed) = .ok value)
    {members : List (Quoted × Doc)} (fits : Fits members) : read.Alike members := by
  have reordered {members : List (Quoted × Doc)} (fits : Fits members)
      {members' : List (Quoted × Doc)} (order : members.Perm members') (source : Source)
      (value : α) : read source (.array (members.map Prod.snd) .closed) = .ok value ↔
        read source (.object members' .closed) = .ok value :=
    (placed fits source value).trans
      ⟨unordered.keeps (.members .closed order), unordered.keeps (.members .closed order.symm)⟩
  refine ⟨fun _ => reordered fits, fun members' order text text' spelled spelled' value => ?_⟩
  have items : (Doc.array (members.map Prod.snd) .closed).limitDepth Doc.maxDepth =
      .array ((Doc.limitMembers (Doc.maxDepth - 1) members).map Prod.snd) .closed := by
    show Doc.array (Doc.limitItems (Doc.maxDepth - 1) (members.map Prod.snd)) .closed = _
    rw [Doc.limitItems_eq_map, Doc.limitMembers_eq_map, List.map_map, List.map_map]
    rfl
  have limited := limit fits (Doc.maxDepth - 1)
  rw [spelled.ofText, spelled'.ofText_object, items]
  rw [Doc.limitMembers_eq_map] at limited ⊢
  exact reordered limited (order.map _) .text value

namespace Leading

variable {members : List (Quoted × Doc)}

theorem alike {record : Record α} (leading : Leading record.shape.names members)
    (unordered : Reader.Unordered record.read) (distinct : record.shape.names.Nodup) :
    Reader.Alike record.read members :=
  unordered.alike (Leading record.shape.names) (fun leading => leading.limit)
    (fun leading _ => leading.read_iff distinct) leading

theorem tagged_alike {κ : Type} [Vocabulary κ] {record : κ → Record α} {title : String} {w : κ}
    (leading : Leading (tagMember :: (record w).shape.names) members)
    (unordered : Reader.Unordered (tagged title record))
    (distinct : (tagMember :: (record w).shape.names).Nodup)
    (typed : (Doc.object members .closed).HasKind w) :
    Reader.Alike (tagged title record) members :=
  unordered.alike (fun members => Leading (tagMember :: (record w).shape.names) members ∧
      (Doc.object members .closed).HasKind w)
    (fun fits room => ⟨fits.1.limit room, fits.2.limitDepth room⟩)
    (fun fits _ => fits.1.tagged_iff distinct fits.2) ⟨leading, typed⟩

end Leading

end RulesText.Format

namespace RulesText
open Format Json

/-- Configurations are read in any order, too. -/
theorem Describe.unordered_config : Describe.Config.read.Unordered :=
  Record.unordered ((((Shape.Unordered.required "usage_limits" unordered_boolean).map _).seq
    (.required "conditions" unordered_boolean)).seq (.required "capitalize" unordered_boolean))

/-- A record written by position is read exactly if the same members are read by name, and as the
same value: abilities, conditions, configurations, and the effects and costs of every kind with
their tag in front. Members that come last may be left out of both alike. -/
theorem positional_reads_alike :
    (∀ members, Leading ["name", "description", "trigger", "cost", "effects", "maxUsesPerTurn",
      "maxUsesPerGame"] members → Ability.read.Alike members) ∧
    (∀ members, Leading ["type", "value", "comparison"] members → Condition.read.Alike members) ∧
    (∀ members, Leading ["usage_limits", "conditions", "capitalize"] members →
      Describe.Config.read.Alike members) ∧
    (∀ (kind : EffectKind) members, (Doc.object members .closed).HasKind kind →
      Leading (tagMember :: (Effect.grammar kind).map Slot.name) members →
        Effect.read.Alike members) ∧
    ∀ (kind : CostKind) members, (Doc.object members .closed).HasKind kind →
      Leading (tagMember :: (Cost.grammar kind).map Slot.name) members →
        Cost.read.Alike members := by
  refine ⟨fun members leading => ?_, fun members leading => ?_, fun members leading => ?_,
    fun kind members typed leading => ?_, fun kind members typed leading => ?_⟩
  · exact Leading.alike leading unordered_ability (by decide)
  · exact Leading.alike leading unordered_condition (by decide)
  · exact Leading.alike leading Describe.unordered_config (by decide)
  · rw [← Effect.slots_shape, Shape.map_name_slots] at leading
    exact Leading.tagged_alike leading unordered_effect (Effect.nodup_names kind) typed
  · rw [← Cost.slots_shape, Shape.map_name_slots] at leading
    exact Leading.tagged_alike leading unordered_cost (Cost.nodup_names kind) typed

/-- Healing by position, without a duration or a condition at the end. -/
theorem mending_by_position :
    let placed := "[\"heal\",\"self\",2]"
    let named := "\x7b\"type\":\"heal\",\"target\":\"self\",\"value\":2\x7d"
    Effect.read.ofText placed = .ok (.heal (.known .itself) (.fixed 2)) ∧
      Effect.read.ofText named = .ok (.heal (.known .itself) (.fixed 2)) := by
  intro placed named
  let items : List Json := [.string "heal", .string "self", .number (.int 2)]
  have each : ∀ item ∈ items, Fits 0 item := by
    simp only [items, List.forall_mem_cons]
    exact ⟨.string _, .string _, .int (by unfold InRange; decide), by simp⟩
  have fits : Fits 1 (.array items) := .array each
  have fits' : Fits 1 (.object (["type", "target", "value"].zip items)) :=
    .object fun member listed => each member.2 (List.of_mem_zip listed).2
  have leading : Leading (tagMember :: (Effect.grammar .heal).map Slot.name)
      (memberDocs (["type", "target", "value"].zip items)) :=
    Leading.cons_iff.2 ⟨Quoted.value_ofText _, Leading.cons_iff.2 ⟨Quoted.value_ofText _,
      Leading.cons_iff.2 ⟨Quoted.value_ofText _, List.nil_prefix⟩⟩⟩
  have alike := positional_reads_alike.2.2.2.1 .heal _
    ⟨.ofText "heal", rfl, Quoted.value_ofText _⟩ leading
  have done : Effect.read.ofText placed = .ok (.heal (.known .itself) (.fixed 2)) :=
    eq_ok_of_toOption (by decide +kernel)
  exact ⟨done, (alike.texts _ (.refl _) _ _ fits.isText_compact fits'.isText_compact _).1 done⟩

end RulesText
