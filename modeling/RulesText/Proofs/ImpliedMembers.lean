import RulesText.Proofs.OneMember

/-!
# Members that are left out

A member that may be left out is taken for something that can just as well be written: null if it is
optional, and a value of its own if it has a default. Written out, wherever it stands, it makes no
difference. A member with a default of its own is never null.
-/

namespace RulesText.Json
open RulesText.Format

namespace Doc

/-- Documents that state what may be left out: null, a truth value, a string, an empty list. -/
inductive States : Json → Doc → Prop
  | null : States .null .null
  | bool (b : Bool) : States (.bool b) (.bool b)
  | string {text : String} {quoted : Quoted} (spelled : quoted.value = .ok text) :
    States (.string text) (.string quoted)
  | empty : States (.array []) (.array [] .closed)

namespace States

variable {json : Json} {doc : Doc}

theorem check (states : States json doc) : doc.check = .ok () := by
  cases states with
  | string spelled =>
    rw [Doc.check, spelled]
    rfl
  | null | bool _ | empty => rfl

theorem limitDepth (states : States json doc) (room : Nat) :
    States json (doc.limitDepth (room + 1)) := by
  cases states with
  | string spelled => exact .string spelled
  | null => exact .null
  | bool b => exact .bool b
  | empty => exact .empty

theorem fits (states : States json doc) : Fits 1 json := by
  cases states with
  | null => exact .null
  | bool b => exact .bool b
  | string _ => exact .string _
  | empty => exact .array (by simp)

end States

end Doc

end RulesText.Json

namespace RulesText.Format
open RulesText.Json

variable {α β γ : Type} {source : Source}

/-! ## What is implied -/

/-- Whether a member that is left out is taken for what a plain value states. Unless that is null,
the member may not be null. -/
structure Field.Implies (field : Field α) (json : Json) : Prop where
  sayable : Doc.States json json.toDoc
  absent : ∃ a, field.absent = some a ∧
    ∀ source doc, Doc.States json doc → field.read source doc = .ok a
  null : json ≠ .null → ∀ source a, field.read source .null ≠ .ok a

/-- Whether a table gives what is implied by the members of a shape that may be left out. -/
inductive Shape.Implies : {α : Type} → Shape α → List (String × Json) → Prop
  | value {α : Type} (a : α) : Implies (.value a) []
  | needed {α β : Type} {field : Field β} {rest : Shape (β → α)} {table : List (String × Json)}
    (absent : field.absent = none) (others : Implies rest table) :
    Implies (.member field rest) table
  | implied {α β : Type} {field : Field β} {rest : Shape (β → α)} {json : Json}
    {table : List (String × Json)} (implies : field.Implies json) (others : Implies rest table) :
    Implies (.member field rest) ((field.name, json) :: table)

namespace Shape.Implies

variable {table table' : List (String × Json)}

theorem map {shape : Shape α} (implies : shape.Implies table) (build : α → γ) :
    (build <$> shape).Implies table := by
  show (shape.map build).Implies table
  induction implies generalizing γ with
  | value a => exact .value _
  | needed absent _ ih => exact .needed absent (ih _)
  | implied inside _ ih => exact .implied inside (ih _)

theorem append {shape : Shape α} {next : Shape β} (implies : shape.Implies table)
    (implies' : next.Implies table') (build : α → β → γ) :
    (shape.append build next).Implies (table ++ table') := by
  induction implies generalizing γ with
  | value a => exact implies'.map (build a)
  | needed absent _ ih => exact .needed absent (ih _)
  | implied inside _ ih => exact .implied inside (ih _)

theorem seq {shape : Shape (α → β)} {next : Shape α} (implies : shape.Implies table)
    (implies' : next.Implies table') : (shape <*> next).Implies (table ++ table') :=
  implies.append implies' _

theorem required (name : String) (read : Reader α) : (Shape.required name read).Implies [] :=
  .needed rfl (.value id)

theorem optional (name : String) (read : Reader α) :
    (Shape.optional name read).Implies [(name, .null)] := by
  refine .implied ⟨.null, ⟨none, rfl, fun source doc states => ?_⟩, fun impossible => ?_⟩
    (.value id)
  · cases states
    rfl
  · exact absurd rfl impossible

theorem defaulted (name : String) {read : Reader α} {absent : α} {json : Json}
    (sayable : Doc.States json json.toDoc)
    (reads : ∀ source doc, Doc.States json doc → read source doc = .ok absent)
    (null : ∀ source a, read source .null ≠ .ok a) :
    (Shape.defaulted name read absent).Implies [(name, json)] :=
  .implied ⟨sayable, ⟨absent, rfl, reads⟩, fun _ => null⟩ (.value id)

/-- A member that is missing where the others are gathered implies something. -/
theorem exists_field {shape : Shape α} (implies : shape.Implies table)
    {find : String → Option Doc} {value : α} (gathered : shape.gather source find = .ok value)
    {name : String} (own : name ∈ shape.names) (missing : find name = none) :
    ∃ (β : Type) (field : Field β) (json : Json), shape.Has field ∧ field.name = name ∧
      (name, json) ∈ table ∧ field.Implies json := by
  induction implies with
  | value a => cases own
  | needed absent others ih =>
    obtain ⟨_, taken, gathered⟩ := bind_eq_ok gathered
    obtain ⟨_, gathered, _⟩ := bind_eq_ok gathered
    rcases List.mem_cons.1 own with rfl | later
    · rw [missing, Field.take, absent] at taken
      cases taken
    · obtain ⟨β, field, json, has, named, listed, inside⟩ := ih gathered later
      exact ⟨β, field, json, .there _ has, named, listed, inside⟩
  | implied inside others ih =>
    obtain ⟨_, _, gathered⟩ := bind_eq_ok gathered
    obtain ⟨_, gathered, _⟩ := bind_eq_ok gathered
    rcases List.mem_cons.1 own with rfl | later
    · exact ⟨_, _, _, .here _, rfl, List.mem_cons_self, inside⟩
    · obtain ⟨β, field, json, has, named, listed, inside⟩ := ih gathered later
      exact ⟨β, field, json, .there _ has, named, List.mem_cons_of_mem _ listed, inside⟩

end Shape.Implies

/-! ## Writing it out -/

/-- What becomes of the members before and after when one of a name joins them: the value is the
same if it states what is implied, and there is none if it is null instead. -/
structure Joins (read : List (Quoted × Doc) → Except Fault α) (before after : List (Quoted × Doc))
    (value : α) (name : String) (json : Json) : Prop where
  same : ∀ key doc, key.value = .ok name → Doc.States json doc →
    read (before ++ (key, doc) :: after) = .ok value
  null : json ≠ .null → ∀ key value', key.value = .ok name →
    read (before ++ (key, .null) :: after) ≠ .ok value'

variable {before after : List (Quoted × Doc)} {name : String} {table : List (String × Json)}
  {value : α}

/-- A member that joins those from which a value is gathered takes part in it. -/
theorem Shape.Has.gather_joined {shape : Shape α} {field : Field β} (has : shape.Has field)
    (distinct : shape.names.Nodup) (missing : valuesOf (before ++ after) field.name = [])
    (gathered : shape.gather source (lookup (before ++ after)) = .ok value) :
    ∃ build : β → α, build <$> field.take source none = .ok value ∧
      ∀ key doc, key.value = .ok field.name →
        shape.gather source (lookup (before ++ (key, doc) :: after)) =
          build <$> field.read source doc := by
  obtain ⟨build, depends⟩ := has.gather distinct gathered
  refine ⟨build, ?_, fun key doc named => ?_⟩
  · rw [← gathered, depends _ fun _ _ => rfl, lookup_eq_none missing]
  · rw [Doc.valuesOf_append, List.append_eq_nil_iff] at missing
    have once : (valuesOf (before ++ (key, doc) :: after) field.name).length ≤ 1 := by
      rw [valuesOf_middle_self named, missing.1, missing.2]
      exact Nat.le_refl 1
    rw [depends _ fun other different => lookup_middle_other named different.symm doc,
      lookup_middle_self named once doc, Field.take]

/-- Members pass with one more, if it was missing and can be read. -/
theorem Record.Passes.joined {record : Record α}
    (passes : record.Passes source [] (before ++ after)) (own : name ∈ record.shape.names)
    (missing : valuesOf (before ++ after) name = []) {key : Quoted}
    (named : key.value = .ok name) {doc : Doc}
    (read : record.inspectValue source name doc = .ok ()) :
    record.Passes source [] (before ++ (key, doc) :: after) :=
  (passes_middle named).2 ⟨(allow_eq_ok_iff _ _ _).2 ⟨.inl own, fun _ => List.not_mem_nil⟩, read,
    (passes_unseen missing).2 passes⟩

/-- A member that is missing from an object may be written out. -/
theorem Record.joins {record : Record α} (implies : record.shape.Implies table)
    (distinct : record.shape.names.Nodup)
    (done : record.ofMembers source (before ++ after) .closed = .ok value)
    (own : name ∈ record.shape.names) (missing : valuesOf (before ++ after) name = []) :
    ∃ json, (name, json) ∈ table ∧ Doc.States json json.toDoc ∧
      Joins (fun members => record.ofMembers source members .closed) before after value name
        json := by
  obtain ⟨_, passes, gathered⟩ := ofMembers_eq_ok_iff.1 done
  obtain ⟨β, field, json, has, rfl, listed, inside⟩ :=
    implies.exists_field gathered own (lookup_eq_none missing)
  obtain ⟨build, given, joined⟩ := has.gather_joined distinct missing gathered
  obtain ⟨a, implied, reads⟩ := inside.absent
  refine ⟨json, listed, inside.sayable, fun key doc named states => ?_,
    fun present key value' named done => ?_⟩
  · -- What is read is the value that was taken for granted.
    have read := reads source doc states
    have inspected : record.inspectValue source field.name doc = .ok () := by
      rw [inspectValue_own has distinct, read]
      rfl
    refine ofMembers_eq_ok_iff.2 ⟨rfl, passes.joined own missing named inspected, ?_⟩
    rw [joined key doc named, read, ← given, Field.take, implied]
    rfl
  · have gathered := (ofMembers_eq_ok_iff.1 done).2.2
    rw [joined key .null named] at gathered
    obtain ⟨a, read, _⟩ := bind_eq_ok gathered
    exact inside.null present source a read

/-- So may one that is missing from an object with a tag, which is kept until the tag is known. -/
theorem tagged_joins {κ : Type} [Vocabulary κ] {record : κ → Record α} {title : String}
    {kind : α → κ} (kinds : ∀ w, (record w).shape.Yields fun a => kind a = w)
    {table : κ → List (String × Json)} (implies : ∀ w, (record w).shape.Implies (table w))
    (distinct : ∀ w, (tagMember :: (record w).shape.names).Nodup)
    (done : tagged title record source (.object (before ++ after) .closed) = .ok value)
    (own : name ∈ (record (kind value)).shape.names)
    (missing : valuesOf (before ++ after) name = []) :
    ∃ json, (name, json) ∈ table (kind value) ∧ Doc.States json json.toDoc ∧
      Joins (fun members => tagged title record source (.object members .closed)) before after
        value name json := by
  obtain ⟨_, w, tags, kept⟩ := of_tagged_object done
  obtain rfl : kind value = w :=
    kinds w value (Shape.built_of_gather (Record.ofMembers_eq_ok_iff.1 kept).2.2)
  obtain ⟨untagged, distinct⟩ := List.nodup_cons.1 (distinct (kind value))
  have other : name ≠ tagMember := fun same => untagged (same ▸ own)
  rw [← valuesOf_payload other, payload_append] at missing
  rw [payload_append] at kept
  obtain ⟨json, listed, sayable, joins⟩ :=
    Record.joins (implies (kind value)) distinct kept own missing
  refine ⟨json, listed, sayable, fun key doc named states => ?_,
    fun present key value' named done => ?_⟩
  · rw [tagged_object ((tags_middle_other named other).2 ⟨states.check, tags⟩),
      payload_middle_other named other]
    exact joins.same key doc named states
  · obtain ⟨_, w, tags', kept'⟩ := of_tagged_object done
    obtain rfl := tags.unique ((tags_middle_other named other).1 tags').2
    rw [payload_middle_other named other] at kept'
    exact joins.null present key value' named kept'

/-! ## Texts -/

/-- Whether, of all values that are read from an object, each is read again when a member of its own
that was missing is written out, wherever it stands, and none is read when that member is null
although it may not be. The tables tell the names of the members and what is implied by those that
may be left out. -/
structure Reader.Fills (read : Reader α) (names : α → List String)
    (table : α → List (String × Json)) : Prop where
  placed : ∀ source before after value,
    read source (.object (before ++ after) .closed) = .ok value →
    ∀ name ∈ names value, valuesOf (before ++ after) name = [] →
      ∃ json, (name, json) ∈ table value ∧ Doc.States json json.toDoc ∧
        Joins (fun members => read source (.object members .closed)) before after value name json
  texts : ∀ before after text value, Doc.IsText (.object (before ++ after) .closed) text →
    read.ofText text = .ok value →
    ∀ name ∈ names value, valuesOf (before ++ after) name = [] →
      ∃ json, (name, json) ∈ table value ∧
        (∃ key doc text', key.value = .ok name ∧ Doc.States json doc ∧
          Doc.IsText (.object (before ++ (key, doc) :: after) .closed) text') ∧
        ∀ key text', key.value = .ok name →
          (∀ doc, Doc.States json doc →
            Doc.IsText (.object (before ++ (key, doc) :: after) .closed) text' →
              read.ofText text' = .ok value) ∧
          (json ≠ .null → ∀ value',
            Doc.IsText (.object (before ++ (key, .null) :: after) .closed) text' →
              read.ofText text' ≠ .ok value')

/-- What holds of the members where they stand holds of their texts. -/
theorem Reader.fills_of_placed {read : Reader α} {names : α → List String}
    {table : α → List (String × Json)}
    (placed : ∀ source before after value,
      read source (.object (before ++ after) .closed) = .ok value →
      ∀ name ∈ names value, valuesOf (before ++ after) name = [] →
        ∃ json, (name, json) ∈ table value ∧ Doc.States json json.toDoc ∧
          Joins (fun members => read source (.object members .closed)) before after value name
            json) : read.Fills names table := by
  refine ⟨placed, fun before after text value spelled done name own missing => ?_⟩
  rw [spelled.ofText_object, List.map_append] at done
  have missing' := valuesOf_limitMembers (Doc.maxDepth - 1) (before ++ after) name
  rw [missing, Doc.limitMembers_eq_map, List.map_append] at missing'
  obtain ⟨json, listed, sayable, joins⟩ := placed .text _ _ value done name own missing'
  refine ⟨json, listed, ⟨.ofText name, json.toDoc, ?_⟩, fun key text' named =>
    ⟨fun doc states spelled' => ?_, fun present value' spelled' => ?_⟩⟩
  · have each := Doc.exists_isText_object_iff.1 ⟨text, spelled⟩
    have spellable : SpellableMember (.ofText name, json.toDoc) :=
      ⟨⟨_, printedInside_spells name⟩, ⟨_, sayable.fits.compact_spells⟩⟩
    obtain ⟨text', spelled'⟩ := Doc.exists_isText_object_iff.2 fun member listed =>
      (List.mem_cons.1 (List.perm_middle.mem_iff.1 listed)).elim
        (fun same => same ▸ spellable) fun among => each member among
    exact ⟨text', Quoted.value_ofText name, sayable, spelled'⟩
  · rw [spelled'.ofText_object, List.map_append, List.map_cons]
    exact joins.same key _ named (states.limitDepth 125)
  · rw [spelled'.ofText_object, List.map_append, List.map_cons]
    exact joins.null present key value' named

end RulesText.Format

namespace RulesText
open Format Json

/-! ## What is implied in records -/

/-- The members of an effect of each kind that may be left out for a value, and the value. -/
def Effect.ownDefaults : EffectKind → List (String × Json)
  | .dealDamage => [("piercing", .bool false)]
  | .removeCounter => [("counter", .null), ("value", .null)]
  | .cannotBeTargeted => [("costThreshold", .null)]
  | .move => [("to", .string "adjacent")]
  | .gainResource => [("resource", .string "nectar")]
  | .preventDamage => [("value", .null)]
  | .searchDeck => [("value", .null), ("cardKind", .null), ("affinity", .null)]
  | .discard => [("random", .bool false)]
  | _ => []

/-- The members of an effect that may be left out, and what is implied. -/
def Effect.defaults (kind : EffectKind) : List (String × Json) :=
  Effect.ownDefaults kind ++ (if kind.requiresDuration then [] else [("duration", .null)])
    ++ [("condition", .null)]

theorem implies_boolean (name : String) :
    (Shape.defaulted name boolean false).Implies [(name, .bool false)] := by
  refine .defaulted name (.bool false) (fun source doc states => ?_) nofun
  cases states
  rfl

theorem implies_word {κ : Type} [Vocabulary κ] (name : String) (w : κ) :
    (Shape.defaulted name word w).Implies [(name, .string (Vocabulary.spelling w))] := by
  refine .defaulted name (.string (Quoted.value_ofText _)) (fun source doc states => ?_)
    fun source => ?_
  · cases states with
    | string spelled =>
      cases source <;> exact bind_eq_ok_iff.2 ⟨_, spelled, find_eq_ok_iff.2 rfl⟩
  · cases source <;> nofun

theorem implies_string (name text : String) :
    (Shape.defaulted name string text).Implies [(name, .string text)] := by
  refine .defaulted name (.string (Quoted.value_ofText text)) (fun source doc states => ?_) nofun
  cases states with
  | string spelled => exact spelled

theorem implies_list {α : Type} (name : String) (read : Reader α) :
    (Shape.defaulted name (list read) []).Implies [(name, .array [])] := by
  refine .defaulted name .empty (fun source doc states => ?_) nofun
  cases states
  rfl

theorem implies_standing {change : Shape Standing} (implies : change.Implies []) :
    (Effect.standingShape change).Implies [("condition", .null)] :=
  .seq (.seq (.seq (.map (.required "target" _) _) implies) (.required "duration" _))
    (.optional "condition" _)

theorem implies_act {act : Shape Act} {table : List (String × Json)} (implies : act.Implies table) :
    (Effect.actShape act).Implies (table ++ [("duration", .null)] ++ [("condition", .null)]) :=
  .seq (.seq (.seq (.map (.required "target" _) _) implies) (.optional "duration" _))
    (.optional "condition" _)

theorem implies_effect (kind : EffectKind) :
    (Effect.record kind).shape.Implies (Effect.defaults kind) := by
  cases kind with
  | modifyStats => exact implies_standing (.seq (.map (.required "stat" _) _) (.required "value" _))
  | immunity | damageReduction => exact implies_standing (.map (.required _ _) _)
  | heal | drawCards | attackModification | temporaryHealth | retaliation | swap
  | redirectDamage => exact implies_act (.map (.required _ _) _)
  | destroy | returnToHand | copyAbility | nullify | removeSummoningSickness =>
    exact implies_act (.value _)
  | applyCounter => exact implies_act (.seq (.map (.required "counter" _) _) (.required "value" _))
  | summonToken => exact implies_act (.seq (.map (.required "token" _) _) (.required "value" _))
  | dealDamage =>
    exact implies_act (.seq (.map (.required "value" _) _) (implies_boolean "piercing"))
  | discard => exact implies_act (.seq (.map (.required "value" _) _) (implies_boolean "random"))
  | removeCounter =>
    exact implies_act (.seq (.map (.optional "counter" _) _) (.optional "value" _))
  | cannotBeTargeted =>
    exact implies_act (.seq (.map (.required "by" _) _) (.optional "costThreshold" _))
  | move => exact implies_act (.map (implies_word "to" _) _)
  | gainResource =>
    exact implies_act (.seq (.map (implies_word "resource" _) _) (.required "value" _))
  | preventDamage => exact implies_act (.map (.optional "value" _) _)
  | searchDeck =>
    exact implies_act (.seq (.seq (.map (.optional "value" _) _) (.optional "cardKind" _))
      (.optional "affinity" _))

theorem implies_cost (kind : CostKind) : (Cost.record kind).shape.Implies [("value", .null)] := by
  cases kind with
  | nectar | discard | sacrifice => exact .map (.optional "value" _) _
  | removeCounter => exact .seq (.map (.required "counter" _) _) (.optional "value" _)

theorem implies_condition :
    Condition.record.shape.Implies [("value", .null), ("comparison", .null)] :=
  .seq (.seq (.map (.required "type" _) _) (.optional "value" _)) (.optional "comparison" _)

/-- What is implied by the members of an ability that may be left out. -/
def Ability.defaults : List (String × Json) :=
  [("description", .string ""), ("trigger", .null), ("cost", .null), ("effects", .array []),
    ("maxUsesPerTurn", .null), ("maxUsesPerGame", .null)]

theorem implies_ability : Ability.record.shape.Implies Ability.defaults :=
  .seq (.seq (.seq (.seq (.seq (.seq (.map (.required "name" _) _)
    (implies_string "description" "")) (.optional "trigger" _)) (.optional "cost" _))
    (implies_list "effects" _)) (.optional "maxUsesPerTurn" _)) (.optional "maxUsesPerGame" _)

/-- A member that is left out means what is implied by its lack: an optional one null, and one with
a default of its own just that. So a text without it and one with it written out, anywhere in the
object, are read as the same ability, effect, cost or condition. Null is no text for a member with a
default of its own. -/
theorem left_out_or_written_out :
    Ability.read.Fills (fun _ => ["name", "description", "trigger", "cost", "effects",
      "maxUsesPerTurn", "maxUsesPerGame"]) (fun _ => Ability.defaults) ∧
    Effect.read.Fills (fun effect => (Effect.grammar effect.kind).map Slot.name)
      (fun effect => Effect.defaults effect.kind) ∧
    Cost.read.Fills (fun cost => (Cost.grammar cost.kind).map Slot.name)
      (fun _ => [("value", .null)]) ∧
    Condition.read.Fills (fun _ => ["type", "value", "comparison"])
      (fun _ => [("value", .null), ("comparison", .null)]) := by
  refine ⟨Reader.fills_of_placed ?_, Reader.fills_of_placed ?_, Reader.fills_of_placed ?_,
    Reader.fills_of_placed ?_⟩
  · exact fun source before after value done name own missing =>
      Record.joins implies_ability (by decide) done own missing
  · intro source before after value done name own missing
    rw [← Effect.slots_shape, Shape.map_name_slots] at own
    exact tagged_joins Effect.yields_kind implies_effect Effect.nodup_names done own missing
  · intro source before after value done name own missing
    rw [← Cost.slots_shape, Shape.map_name_slots] at own
    exact tagged_joins Cost.yields_kind implies_cost Cost.nodup_names done own missing
  · exact fun source before after value done name own missing =>
      Record.joins implies_condition (by decide) done own missing

/-- A gain goes without saying what is gained, or says it is nectar, but never null. -/
theorem nectar_goes_without_saying :
    let plain := "\x7b\"type\":\"gain-resource\",\"target\":\"self\",\"value\":2\x7d"
    let nectar := "\x7b\"type\":\"gain-resource\",\"resource\":\"nectar\",\"target\":\"self\"," ++
      "\"value\":2\x7d"
    let null := "\x7b\"type\":\"gain-resource\",\"resource\":null,\"target\":\"self\"," ++
      "\"value\":2\x7d"
    let gain := Effect.once (.known .itself) (.gainResource .nectar 2)
    Effect.read.ofText plain = .ok gain ∧ Effect.read.ofText nectar = .ok gain ∧
      ∀ effect, Effect.read.ofText null ≠ .ok effect := by
  intro plain nectar null gain
  have number : Fits 0 (.number (.int 2)) := .int (by unfold InRange; decide)
  have fits : Fits 1 (.object [("type", .string "gain-resource"), ("target", .string "self"),
      ("value", .number (.int 2))]) := .object (by simp [Fits.string, number])
  have fits_nectar : Fits 1 (.object [("type", .string "gain-resource"),
      ("resource", .string "nectar"), ("target", .string "self"), ("value", .number (.int 2))]) :=
    .object (by simp [Fits.string, number])
  have fits_null : Fits 1 (.object [("type", .string "gain-resource"), ("resource", .null),
      ("target", .string "self"), ("value", .number (.int 2))]) :=
    .object (by simp [Fits.string, Fits.null, number])
  have reads : Effect.read.ofText plain = .ok gain := eq_ok_of_toOption (by decide +kernel)
  obtain ⟨json, listed, _, joins⟩ := left_out_or_written_out.2.1.texts
    (memberDocs [("type", .string "gain-resource")])
    (memberDocs [("target", .string "self"), ("value", .number (.int 2))]) plain gain
    fits.isText_compact reads "resource" (by decide) (by decide)
  have listed : ("resource", json) ∈ [("resource", Json.string "nectar"), ("duration", .null),
    ("condition", .null)] := listed
  obtain rfl : json = .string "nectar" := by simpa using listed
  have joins (text : String) := joins (.ofText "resource") text (Quoted.value_ofText _)
  exact ⟨reads, (joins nectar).1 _ (.string (Quoted.value_ofText _)) fits_nectar.isText_compact,
    fun effect => (joins null).2 nofun effect fits_null.isText_compact⟩

end RulesText
