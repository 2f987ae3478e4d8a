import RulesText.Proofs.Members
import RulesText.Proofs.RoundTrip
import RulesText.Proofs.Texts

/-!
# The grammar of tagged records

An object is taken for an effect or a cost exactly if it follows the grammar of its kind: the tag
is there once, every other member has a place of its own in the kind, no place is filled twice, none
that is required is left empty, and the values fit. Where the tag stands among the members does not
matter, although all of them must be kept until it is known.
-/

namespace RulesText.Format
open RulesText.Json

variable {α : Type}

/-! ## Places for members -/

/-- A place for a member of a record: its name, whether it must be filled, and the values that fit
into it. -/
structure Slot where
  name : String
  required : Bool
  Takes : Doc → Prop

namespace Slot

/-- A place that must be filled with a value that can be read, once it is kept. -/
def must (name : String) (read : Reader α) : Slot :=
  ⟨name, true, fun doc => ∃ a, read .buffer doc = .ok a⟩

/-- A place that may be left empty. -/
def may (name : String) (read : Reader α) : Slot :=
  ⟨name, false, fun doc => ∃ a, read .buffer doc = .ok a⟩

/-- Whether a place may be left as it is with what was found for it. -/
def Filled (slot : Slot) : Option Doc → Prop
  | some doc => slot.Takes doc
  | none => slot.required = false

end Slot

/-- The place of a member. It must be filled if nothing is taken for granted there. -/
def Field.slot (field : Field α) (source : Source) : Slot :=
  ⟨field.name, field.absent.isNone, fun doc => ∃ a, field.read source doc = .ok a⟩

/-- The places of a shape, in order. -/
def Shape.slots {α : Type} (source : Source) : Shape α → List Slot
  | .value _ => []
  | .member field rest => field.slot source :: rest.slots source

theorem Shape.map_name_slots (shape : Shape α) (source : Source) :
    (shape.slots source).map Slot.name = shape.names := by
  induction shape with
  | value a => rfl
  | member field rest ih => rw [slots, List.map_cons, ih, names, Field.slot]

theorem Shape.mem_names_iff {shape : Shape α} (source : Source) {name : String} :
    name ∈ shape.names ↔ ∃ slot ∈ shape.slots source, slot.name = name := by
  rw [← shape.map_name_slots source, List.mem_map]

theorem Field.exists_take_iff (field : Field α) (source : Source) (found : Option Doc) :
    (∃ a, field.take source found = .ok a) ↔ (field.slot source).Filled found := by
  cases found with
  | some doc => exact Iff.rfl
  | none =>
    cases absent : field.absent <;>
      simp [take, slot, absent, Slot.Filled, mismatch, pure, Except.pure]

/-- A record can be gathered if each of its places may be left as it is. -/
theorem Shape.exists_gather_iff {shape : Shape α} {source : Source} {find : String → Option Doc} :
    (∃ a, shape.gather source find = .ok a) ↔
      ∀ slot ∈ shape.slots source, slot.Filled (find slot.name) := by
  induction shape with
  | value a => simp [gather, slots, pure, Except.pure]
  | member field rest ih =>
    rw [slots, List.forall_mem_cons, ← ih, ← field.exists_take_iff]
    simp only [gather, bind_eq_ok_iff]
    constructor
    · rintro ⟨_, a, taken, build, gathered, _⟩
      exact ⟨⟨a, taken⟩, build, gathered⟩
    · rintro ⟨⟨a, taken⟩, build, gathered⟩
      exact ⟨build a, a, taken, build, gathered, rfl⟩

/-- The values behind a name are read by the member whose place has that name. -/
theorem Shape.probe?_slot {shape : Shape α} {source : Source} (distinct : shape.names.Nodup) :
    ∀ slot ∈ shape.slots source, ∃ probe, shape.probe? source slot.name = some probe ∧
      ∀ doc, probe doc = .ok () ↔ slot.Takes doc := by
  induction shape with
  | value a => simp [slots]
  | member field rest ih =>
    obtain ⟨fresh, distinct⟩ := List.nodup_cons.1 distinct
    intro slot listed
    rcases List.mem_cons.1 listed with rfl | later
    · exact ⟨_, if_pos rfl, fun _ => discard_eq_ok_iff⟩
    · have named : slot.name ∈ rest.names := (mem_names_iff source).2 ⟨slot, later, rfl⟩
      have different : field.name ≠ slot.name := fun same => fresh (same ▸ named)
      rw [probe?, if_neg different]
      exact ih distinct slot later

theorem Record.inspectValue_slot {record : Record α} {source : Source}
    (distinct : record.shape.names.Nodup) {slot : Slot} (listed : slot ∈ record.shape.slots source)
    (doc : Doc) : record.inspectValue source slot.name doc = .ok () ↔ slot.Takes doc := by
  obtain ⟨probe, found, takes⟩ := Shape.probe?_slot distinct slot listed
  rw [inspectValue, found]
  exact takes doc

/-! ## Following a grammar -/

/-- Whether the members of an object, in whatever order, follow the grammar of a tag: the tag is
there once and is a string, every other member has a place, no place is filled twice and none that
must be filled is empty, and each value can be kept as a whole and then fits into its place. -/
structure Conforms (tag : String) (slots : List Slot) (members : List (Quoted × Doc)) : Prop where
  tagged : ∃ quoted, valuesOf members tagMember = [.string quoted] ∧ quoted.value = .ok tag
  placed : ∀ member ∈ members, ∃ name, member.1.value = .ok name ∧
    (name = tagMember ∨ ∃ slot ∈ slots, slot.name = name)
  once : ∀ slot ∈ slots, (valuesOf members slot.name).length ≤ 1
  given : ∀ slot ∈ slots, slot.required = true → valuesOf members slot.name ≠ []
  fits : ∀ slot ∈ slots, ∀ doc ∈ valuesOf members slot.name,
    doc.check = .ok () ∧ slot.Takes doc

theorem lookup_payload {name : String} (other : name ≠ tagMember)
    (members : List (Quoted × Doc)) :
    lookup (payload members) name = (valuesOf members name).head? := by
  rw [lookup_eq_head?, valuesOf_payload other]

section

variable {κ : Type} [Vocabulary κ] {record : Record α} {w : κ} {members : List (Quoted × Doc)}

theorem Slot.name_ne_tag (distinct : (tagMember :: record.shape.names).Nodup) {slot : Slot}
    {source : Source} (listed : slot ∈ record.shape.slots source) : slot.name ≠ tagMember := by
  intro same
  have named := (Shape.mem_names_iff source).2 ⟨slot, listed, rfl⟩
  exact (List.nodup_cons.1 distinct).1 (same ▸ named)

/-- Members that follow the grammar of a kind have its tag, and the others make its record. -/
theorem Conforms.read (distinct : (tagMember :: record.shape.names).Nodup)
    (conforms : Conforms (Vocabulary.spelling w) (record.shape.slots .buffer) members) :
    Tags none members w ∧ record.Passes .buffer [] (payload members) ∧
      ∃ a, record.shape.gather .buffer (lookup (payload members)) = .ok a := by
  obtain ⟨_, untagged⟩ := List.nodup_cons.1 distinct
  have place : ∀ member ∈ members, ∀ name, member.1.value = .ok name → name ≠ tagMember →
      ∃ slot ∈ record.shape.slots .buffer, slot.name = name ∧
        member.2.check = .ok () ∧ slot.Takes member.2 := by
    intro member listed name named other
    obtain ⟨name', named', known⟩ := conforms.placed member listed
    obtain rfl : name = name' := Except.ok.inj (named.symm.trans named')
    obtain ⟨slot, own, rfl⟩ := known.resolve_left other
    have value := mem_valuesOf_iff.2 ⟨member.1, listed, named⟩
    exact ⟨slot, own, rfl, conforms.fits slot own member.2 value⟩
  refine ⟨⟨fun member listed => ?_, ?_⟩, ⟨fun member listed => ?_, fun name own => ?_⟩, ?_⟩
  · obtain ⟨name, named, _⟩ := conforms.placed member listed
    refine ⟨name, named, fun other => ?_⟩
    obtain ⟨_, _, _, checked, _⟩ := place member listed name named other
    exact checked
  · obtain ⟨quoted, single, spelled⟩ := conforms.tagged
    exact ⟨_, single, tagWord_eq_ok_iff.2 ⟨quoted, rfl, spelled⟩⟩
  · obtain ⟨among, other⟩ := mem_payload_iff.1 listed
    obtain ⟨name, named, _⟩ := conforms.placed member among
    have different : name ≠ tagMember := fun same => other (same ▸ named)
    obtain ⟨slot, own, rfl, _, takes⟩ := place member among name named different
    exact ⟨slot.name, named, .inl ((Shape.mem_names_iff .buffer).2 ⟨slot, own, rfl⟩),
      (Record.inspectValue_slot untagged own _).2 takes⟩
  · obtain ⟨slot, listed, rfl⟩ := (Shape.mem_names_iff .buffer).1 own
    rw [valuesOf_payload (Slot.name_ne_tag distinct listed)]
    exact conforms.once slot listed
  · refine Shape.exists_gather_iff.2 fun slot own => ?_
    rw [lookup_payload (Slot.name_ne_tag distinct own)]
    cases values : valuesOf members slot.name with
    | nil =>
      cases required : slot.required with
      | false => exact required
      | true => exact absurd values (conforms.given slot own required)
    | cons doc docs =>
      have first : doc ∈ valuesOf members slot.name := values ▸ List.mem_cons_self
      exact (conforms.fits slot own doc first).2

/-- Members with the tag of a kind follow its grammar if the others are read as its record. -/
theorem conforms_of_read (strict : record.lenient = false)
    (distinct : (tagMember :: record.shape.names).Nodup) (tags : Tags none members w)
    (passes : record.Passes .buffer [] (payload members)) {a : α}
    (gathered : record.shape.gather .buffer (lookup (payload members)) = .ok a) :
    Conforms (Vocabulary.spelling w) (record.shape.slots .buffer) members := by
  obtain ⟨_, untagged⟩ := List.nodup_cons.1 distinct
  have filled := Shape.exists_gather_iff.1 ⟨a, gathered⟩
  refine ⟨?_, fun member listed => ?_, fun slot own => ?_, fun slot own required => ?_,
    fun slot own doc listed => ?_⟩
  · obtain ⟨doc, single, word⟩ := tags.once
    obtain ⟨quoted, rfl, spelled⟩ := tagWord_eq_ok_iff.1 word
    exact ⟨quoted, single, spelled⟩
  · obtain ⟨name, named, _⟩ := tags.each member listed
    refine ⟨name, named, ?_⟩
    by_cases same : name = tagMember
    · exact .inl same
    · have behind : member ∈ payload members := by
        refine mem_payload_iff.2 ⟨listed, fun tagged => same ?_⟩
        exact Except.ok.inj (named.symm.trans tagged)
      obtain ⟨name', named', known, _⟩ := passes.each member behind
      obtain rfl : name = name' := Except.ok.inj (named.symm.trans named')
      simpa [strict, same, Shape.mem_names_iff .buffer] using known
  · have count := passes.once slot.name ((Shape.mem_names_iff .buffer).2 ⟨slot, own, rfl⟩)
    rwa [valuesOf_payload (Slot.name_ne_tag distinct own)] at count
  · intro none
    have left := filled slot own
    rw [lookup_payload (Slot.name_ne_tag distinct own), none] at left
    exact absurd (required.symm.trans left) (by decide)
  · obtain ⟨key, among, named⟩ := mem_valuesOf_iff.1 listed
    have other := Slot.name_ne_tag distinct own
    have behind : (key, doc) ∈ payload members := by
      refine mem_payload_iff.2 ⟨among, fun tagged => other ?_⟩
      exact Except.ok.inj (named.symm.trans tagged)
    obtain ⟨name, named', checked⟩ := tags.each (key, doc) among
    obtain rfl : slot.name = name := Except.ok.inj (named.symm.trans named')
    obtain ⟨name, named', _, inspected⟩ := passes.each (key, doc) behind
    obtain rfl : slot.name = name := Except.ok.inj (named.symm.trans named')
    exact ⟨checked other, (Record.inspectValue_slot untagged own doc).1 inspected⟩

end

/-! ## Reading by grammar -/

section

variable {κ : Type} [Vocabulary κ] {record : κ → Record α} {members : List (Quoted × Doc)}

/-- An object is read as some record of the family exactly if it follows the grammar of one kind,
and then it is a record of that kind that is built. -/
theorem exists_tagged_iff (title : String) (strict : ∀ w, (record w).lenient = false)
    (distinct : ∀ w, (tagMember :: (record w).shape.names).Nodup) (source : Source) :
    (∃ a, tagged title record source (.object members .closed) = .ok a) ↔
      ∃ w, Conforms (Vocabulary.spelling w) ((record w).shape.slots .buffer) members := by
  simp only [tagged, bind_eq_ok_iff, tagOfMembers_eq_ok_iff, Record.ofMembers_eq_ok_iff]
  constructor
  · rintro ⟨a, w, ⟨_, tags⟩, _, passes, gathered⟩
    exact ⟨w, conforms_of_read (strict w) (distinct w) tags passes gathered⟩
  · rintro ⟨w, conforms⟩
    obtain ⟨tags, passes, a, gathered⟩ := conforms.read (distinct w)
    exact ⟨a, w, ⟨trivial, tags⟩, trivial, passes, gathered⟩

/-- Whatever an object is read as follows the grammar of its own kind. -/
theorem conforms_of_tagged {kind : α → κ} (title : String)
    (strict : ∀ w, (record w).lenient = false)
    (distinct : ∀ w, (tagMember :: (record w).shape.names).Nodup)
    (kinds : ∀ w, (record w).shape.Yields fun a => kind a = w) {source : Source} {a : α}
    (done : tagged title record source (.object members .closed) = .ok a) :
    Conforms (Vocabulary.spelling (kind a)) ((record (kind a)).shape.slots .buffer) members := by
  simp only [tagged, bind_eq_ok_iff, tagOfMembers_eq_ok_iff, Record.ofMembers_eq_ok_iff] at done
  obtain ⟨w, ⟨_, tags⟩, _, passes, gathered⟩ := done
  have same : kind a = w := kinds w a (Shape.built_of_gather gathered)
  rw [same]
  exact conforms_of_read (strict w) (distinct w) tags passes gathered

end

end RulesText.Format

namespace RulesText
open Format Json

/-! ## Kinds -/

theorem Cost.yields_kind (kind : CostKind) :
    (Cost.shape kind).Yields fun cost => cost.kind = kind := by
  have value := Shape.Yields.any (Shape.optional "value" uint32)
  cases kind with
  | removeCounter => exact .seq (.map ((Shape.Yields.any _).mono fun _ _ _ _ => rfl)) value
  | nectar | discard | sacrifice => exact .map (value.mono fun _ _ => rfl)

namespace Effect

theorem yields_standingShape_kind {shape : Shape Standing} {kind : EffectKind}
    (yields : shape.Yields fun change => change.kind = kind) :
    (standingShape shape).Yields fun effect => effect.kind = kind := by
  refine .seq (.seq (.seq (.map ?_) yields) (.any _)) (.any _)
  exact (Shape.Yields.any _).mono fun _ _ _ same _ _ _ _ => same

theorem yields_actShape_kind {shape : Shape Act} {kind : EffectKind}
    (yields : shape.Yields fun act => act.kind = kind) :
    (actShape shape).Yields fun effect => effect.kind = kind := by
  refine .seq (.seq (.seq (.map ?_) yields) (.any _)) (.any _)
  exact (Shape.Yields.any _).mono fun _ _ _ same _ _ _ _ => same

/-- The shape of a kind builds effects of that kind only. -/
theorem yields_kind (kind : EffectKind) :
    (Effect.shape kind).Yields fun effect => effect.kind = kind := by
  cases kind with
  | immunity | damageReduction =>
    exact yields_standingShape_kind (.map ((Shape.Yields.any _).mono fun _ _ => rfl))
  | modifyStats =>
    exact yields_standingShape_kind
      (.seq (.map ((Shape.Yields.any _).mono fun _ _ _ _ => rfl)) (.any _))
  | heal | drawCards | attackModification | move | preventDamage | temporaryHealth | retaliation
  | swap | redirectDamage =>
    exact yields_actShape_kind (.map ((Shape.Yields.any _).mono fun _ _ => rfl))
  | dealDamage | applyCounter | removeCounter | cannotBeTargeted | gainResource | discard
  | summonToken =>
    exact yields_actShape_kind
      (.seq (.map ((Shape.Yields.any _).mono fun _ _ _ _ => rfl)) (.any _))
  | searchDeck =>
    exact yields_actShape_kind
      (.seq (.seq (.map ((Shape.Yields.any _).mono fun _ _ _ _ _ _ => rfl)) (.any _)) (.any _))
  | destroy | returnToHand | copyAbility | nullify | removeSummoningSickness =>
    exact yields_actShape_kind (.value rfl)

/-- What is written for an effect is its tag and then members of its kind. -/
theorem toJson_members (effect : Effect) : ∃ others,
    effect.toJson = .object ((tagMember, wordJson effect.kind) :: others) ∧
      (others.map Prod.fst).Sublist (Effect.shape effect.kind).names := by
  obtain ⟨target, deed, condition⟩ := effect
  cases deed with
  | standing change duration =>
    exact ⟨_, rfl, (@written_standing 0 change duration target condition).names⟩
  | act what duration =>
    exact ⟨_, rfl, (@written_act 0 what duration target condition).names⟩

end Effect

/-- What is written for a cost is its tag and then members of its kind. -/
theorem Cost.toJson_members (cost : Cost) : ∃ others,
    cost.toJson = .object ((tagMember, wordJson cost.kind) :: others) ∧
      (others.map Prod.fst).Sublist (Cost.shape cost.kind).names :=
  ⟨_, rfl, (@written_cost 0 cost).names⟩

/-! ## The grammar of effects and costs -/

/-- The places that only the effects of a kind have. -/
def Effect.ownPlaces : EffectKind → List Slot
  | .modifyStats => [.must "stat" Stat.read, .must "value" int32]
  | .dealDamage => [.must "value" DamageAmount.read, .may "piercing" boolean]
  | .heal => [.must "value" HealAmount.read]
  | .drawCards | .temporaryHealth | .damageReduction | .retaliation => [.must "value" uint32]
  | .applyCounter => [.must "counter" Counter.read, .must "value" uint32]
  | .removeCounter => [.may "counter" (nullable Counter.read), .may "value" (nullable uint32)]
  | .immunity => [.must "immuneTo" (list ImmunitySource.read)]
  | .cannotBeTargeted =>
    [.must "by" (list TargetingSource.read), .may "costThreshold" (nullable uint32)]
  | .attackModification => [.must "modification" AttackModifier.read]
  | .move => [.may "to" Destination.read]
  | .gainResource => [.may "resource" Resource.read, .must "value" uint32]
  | .preventDamage => [.may "value" (nullable uint32)]
  | .searchDeck =>
    [.may "value" (nullable uint32), .may "cardKind" (nullable CardKind.read),
      .may "affinity" (nullable Affinity.read)]
  | .swap => [.must "swap" SwapKind.read]
  | .discard => [.must "value" uint32, .may "random" boolean]
  | .redirectDamage => [.must "to" Target.read]
  | .summonToken => [.must "token" string, .must "value" uint32]
  | .destroy | .returnToHand | .copyAbility | .nullify | .removeSummoningSickness => []

/-- The places for the members of an effect of a kind, the tag aside. Every effect has a target and
perhaps a condition, and its kind says whether it must last for some time. -/
def Effect.grammar (kind : EffectKind) : List Slot :=
  .must "target" Target.read :: Effect.ownPlaces kind ++
    [if kind.requiresDuration then .must "duration" Duration.read
      else .may "duration" (nullable Duration.read),
      .may "condition" (nullable Condition.read)]

/-- The places for the members of a cost of a kind, the tag aside. -/
def Cost.grammar : CostKind → List Slot
  | .nectar | .discard | .sacrifice => [.may "value" (nullable uint32)]
  | .removeCounter => [.must "counter" Counter.read, .may "value" (nullable uint32)]

/-- The shape by which a kind is read and the requirement on its duration agree. -/
theorem Effect.slots_shape (kind : EffectKind) :
    (Effect.shape kind).slots .buffer = Effect.grammar kind := by
  cases kind <;> rfl

theorem Cost.slots_shape (kind : CostKind) :
    (Cost.shape kind).slots .buffer = Cost.grammar kind := by
  cases kind <;> rfl

/-- Whether a reader takes, of all texts of an object, exactly those that follow the grammar of one
of the kinds, whatever the order of their members. What is read has the kind that its text names,
and what is written for it names that kind first and has only members of that kind behind.
Containers nested too deep do not fit anywhere. -/
structure ReadsByGrammar {α κ : Type} [Vocabulary κ] (read : Reader α) (kind : α → κ)
    (grammar : κ → List Slot) (write : α → Json) : Prop where
  accepts : ∀ members text, Doc.IsText (.object members .closed) text →
    ((∃ value, read.ofText text = .ok value) ↔ ∃ w, Conforms (Vocabulary.spelling w) (grammar w)
      (Doc.limitMembers (Doc.maxDepth - 1) members))
  keeps : ∀ members text value, Doc.IsText (.object members .closed) text →
    read.ofText text = .ok value → Conforms (Vocabulary.spelling (kind value))
      (grammar (kind value)) (Doc.limitMembers (Doc.maxDepth - 1) members)
  writes : ∀ value, ∃ others,
    write value = .object ((tagMember, .string (Vocabulary.spelling (kind value))) :: others) ∧
      (others.map Prod.fst).Sublist ((grammar (kind value)).map Slot.name)

/-- A family of strict records with a tag is read by its grammar. -/
theorem readsByGrammar_tagged {α κ : Type} [Vocabulary κ] {record : κ → Record α} {kind : α → κ}
    {grammar : κ → List Slot} {write : α → Json} (title : String)
    (strict : ∀ w, (record w).lenient = false)
    (distinct : ∀ w, (tagMember :: (record w).shape.names).Nodup)
    (places : ∀ w, (record w).shape.slots .buffer = grammar w)
    (kinds : ∀ w, (record w).shape.Yields fun a => kind a = w)
    (writes : ∀ value, ∃ others,
      write value = .object ((tagMember, wordJson (kind value)) :: others) ∧
        (others.map Prod.fst).Sublist (record (kind value)).shape.names) :
    ReadsByGrammar (tagged title record) kind grammar write := by
  refine ⟨fun members text spelled => ?_, fun members text value spelled done => ?_,
    fun value => ?_⟩
  · rw [spelled.ofText]
    simp only [← places]
    exact exists_tagged_iff title strict distinct .text
  · rw [spelled.ofText] at done
    rw [← places]
    exact conforms_of_tagged title strict distinct kinds done
  · rw [← places, Shape.map_name_slots]
    exact writes value

/-- Effects are read by the grammar of their 25 kinds and costs by that of their 4 kinds. -/
theorem reads_by_grammar :
    ReadsByGrammar Effect.read Effect.kind Effect.grammar Effect.toJson ∧
    ReadsByGrammar Cost.read Cost.kind Cost.grammar Cost.toJson ∧
    (Vocabulary.spellings EffectKind).length = 25 ∧ (Vocabulary.spellings EffectKind).Nodup ∧
    (Vocabulary.spellings CostKind).length = 4 ∧ (Vocabulary.spellings CostKind).Nodup := by
  refine ⟨?_, ?_, by decide, by decide, by decide, by decide⟩
  · exact readsByGrammar_tagged _ (fun _ => rfl) Effect.nodup_names Effect.slots_shape
      Effect.yields_kind Effect.toJson_members
  · exact readsByGrammar_tagged _ (fun _ => rfl) Cost.nodup_names Cost.slots_shape
      Cost.yields_kind Cost.toJson_members

/-- Healing with the tag between the other members. -/
theorem mending_by_grammar :
    Effect.read.ofText "\x7b\"value\":2,\"type\":\"heal\",\"target\":\"self\"\x7d" =
        .ok (.heal (.known .itself) (.fixed 2)) ∧
      Conforms "heal" (Effect.grammar .heal)
        (memberDocs [("value", .number (.int 2)), (tagMember, .string "heal"),
          ("target", .string "self")]) := by
  have fits : Fits 1 (.object [("value", .number (.int 2)), (tagMember, .string "heal"),
      ("target", .string "self")]) := by
    refine .object fun member listed => ?_
    simp only [List.mem_cons, List.not_mem_nil, or_false] at listed
    rcases listed with rfl | rfl | rfl
    · exact .int (by unfold InRange; decide)
    · exact .string _
    · exact .string _
  have spelled : Doc.IsText _ "\x7b\"value\":2,\"type\":\"heal\",\"target\":\"self\"\x7d" :=
    fits.isText_compact
  have done : Effect.read.ofText "\x7b\"value\":2,\"type\":\"heal\",\"target\":\"self\"\x7d" =
      .ok (.heal (.known .itself) (.fixed 2)) := eq_ok_of_toOption (by decide +kernel)
  exact ⟨done, reads_by_grammar.1.keeps _ _ _ spelled done⟩

end RulesText
