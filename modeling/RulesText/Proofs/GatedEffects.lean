import RulesText.Proofs.Buffering
import RulesText.Proofs.Grammar
import RulesText.Proofs.MemberOrder

/-!
# Conditions among the members of an effect

The condition of an effect is a member like any other, read from the buffer in which an effect keeps
its members. It is the last member of the shape of every kind, and nothing else in the effect
depends on it. So an effect with a condition is the effect without it under a condition that could
just as well have been read from a text of its own.
-/

namespace RulesText.Format
open RulesText.Json

variable {α β : Type}

/-! ## One member more -/

/-- A tagged object is read as the record of its tag, whose members are kept. -/
theorem tagged_object_eq_ok_iff {κ : Type} [Vocabulary κ] {record : κ → Record α} {title : String}
    {source : Source} {members : List (Quoted × Doc)} {a : α} :
    tagged title record source (.object members .closed) = .ok a ↔
      ∃ w, Tags none members w ∧ (record w).Passes .buffer [] (payload members) ∧
        (record w).shape.gather .buffer (lookup (payload members)) = .ok a := by
  simp only [tagged, bind_eq_ok_iff, tagOfMembers_eq_ok_iff, Record.ofMembers_eq_ok_iff, true_and]

/-- Members have no two tags. -/
theorem Tags.unique {κ : Type} [Vocabulary κ] {members : List (Quoted × Doc)} {w w' : κ}
    (tags : Tags none members w) (tags' : Tags none members w') : w = w' := by
  have first := tagOfMembers_eq_ok_iff.2 ⟨(rfl : ObjectEnd.closed = .closed), tags⟩
  have second := tagOfMembers_eq_ok_iff.2 ⟨(rfl : ObjectEnd.closed = .closed), tags'⟩
  exact Except.ok.inj (first.symm.trans second)

theorem valuesOf_eq_nil_iff {members : List (Quoted × Doc)} {name : String} :
    valuesOf members name = [] ↔ ∀ member ∈ members, member.1.value ≠ .ok name := by
  unfold valuesOf
  simp [Quoted.is_eq_true_iff]

/-- A name that does not occur may have been seen or not. -/
theorem Record.passes_unseen {record : Record α} {source : Source} {name : String}
    {members : List (Quoted × Doc)} (fresh : valuesOf members name = []) :
    record.Passes source [name] members ↔ record.Passes source [] members := by
  constructor
  · rintro ⟨each, once⟩
    refine ⟨each, fun other own => Nat.le_trans (once other own) ?_⟩
    split <;> simp
  · rintro ⟨each, once⟩
    refine ⟨each, fun other own => ?_⟩
    by_cases same : other = name
    · rw [same, fresh]
      exact Nat.zero_le _
    · simpa [same] using once other own

section

variable {key : Quoted} {name other : String} (named : key.value = .ok name) (doc : Doc)
  (members : List (Quoted × Doc))

include named

theorem payload_cons_other (different : name ≠ tagMember) :
    payload ((key, doc) :: members) = (key, doc) :: payload members := by
  refine (payload_cons key doc members).trans (if_neg fun same => different ?_)
  rw [Quoted.is_eq_true_iff, named] at same
  exact Except.ok.inj same

theorem lookup_cons_self : lookup ((key, doc) :: members) name = some doc := by
  rw [lookup_eq_head?, valuesOf_cons_self named]
  rfl

theorem lookup_cons_other (different : name ≠ other) :
    lookup ((key, doc) :: members) other = lookup members other := by
  rw [lookup_eq_head?, lookup_eq_head?, valuesOf_cons_other named different]

end

theorem Shape.gather_optional_eq_ok_iff {shape : Shape (Option α → β)} {name : String}
    {read : Reader α} {source : Source} {find : String → Option Doc} {value : β} :
    (shape <*> .optional name read).gather source find = .ok value ↔
      ∃ build, shape.gather source find = .ok build ∧ ∃ a,
        Field.take ⟨name, nullable read, some none⟩ source (find name) = .ok a ∧
          build a = value := by
  show (Shape.append _ _ _).gather source find = .ok value ↔ _
  rw [Shape.gather_append, bind_eq_ok_iff]
  refine exists_congr fun build => and_congr_right fun _ => ?_
  simp only [Shape.optional, Shape.gather, map_eq_pure_bind, bind_assoc, pure_bind, id,
    bind_eq_ok_iff]
  simp only [pure, Except.pure, Except.ok.injEq]

end RulesText.Format

namespace RulesText
open Format Json

/-! ## Conditions -/

/-- The members of a condition are tags, and numbers and tags. -/
theorem buffers_condition : Condition.shape.Buffers 1 :=
  ⟨buffers_word, (buffers_alternatives Operand.leaf_of_ofDoc?).nullable, buffers_word.nullable,
    trivial⟩

namespace Effect

/-- Whether a shape ends with a condition on which nothing else in the effect depends. -/
def EndsGated (shape : Shape Effect) (ungated : Shape (Option Condition → Effect)) : Prop :=
  shape = ungated <*> .optional "condition" Condition.read ∧
    ungated.Yields fun build => ∀ condition, build condition = { build none with condition }

theorem standingShape_endsGated (change : Shape Standing) :
    ∃ ungated, EndsGated (standingShape change) ungated := by
  refine ⟨_, rfl, .seq (.seq (.map ?_) (.any _)) (.any _)⟩
  exact (Shape.Yields.any _).mono fun _ _ _ _ _ _ _ => rfl

theorem actShape_endsGated (act : Shape Act) : ∃ ungated, EndsGated (actShape act) ungated := by
  refine ⟨_, rfl, .seq (.seq (.map ?_) (.any _)) (.any _)⟩
  exact (Shape.Yields.any _).mono fun _ _ _ _ _ _ _ => rfl

theorem shape_endsGated (kind : EffectKind) :
    ∃ ungated, EndsGated (Effect.shape kind) ungated := by
  cases kind with
  | modifyStats | immunity | damageReduction => exact standingShape_endsGated _
  | _ => exact actShape_endsGated _

theorem EndsGated.names {shape : Shape Effect} {ungated : Shape (Option Condition → Effect)}
    (ends : EndsGated shape ungated) : shape.names = ungated.names ++ ["condition"] := by
  rw [ends.1]
  exact Shape.names_append _ _ _

theorem EndsGated.condition_notMem {shape : Shape Effect}
    {ungated : Shape (Option Condition → Effect)} (ends : EndsGated shape ungated)
    (distinct : shape.names.Nodup) : "condition" ∉ ungated.names := by
  rw [ends.names] at distinct
  exact fun own => (List.nodup_append.1 distinct).2.2 _ own _ (List.mem_singleton.2 rfl) rfl

theorem inspectValue_condition (kind : EffectKind) (doc : Doc) :
    (Effect.record kind).inspectValue .buffer "condition" doc = .ok () ↔
      ∃ condition, nullable Condition.read .buffer doc = .ok condition := by
  have place : Slot.may "condition" (nullable Condition.read) ∈
      (Effect.shape kind).slots .buffer := by
    rw [Effect.slots_shape]
    simp [Effect.grammar]
  exact Record.inspectValue_slot (List.nodup_cons.1 (Effect.nodup_names kind)).2 place doc

/-- Where the members of an effect without a condition are gathered, with a condition among them the
same effect is, but for the condition. -/
theorem gather_condition {kind : EffectKind} {source : Source} {find : String → Option Doc}
    {effect : Effect} (none : find "condition" = none)
    (gathered : (Effect.shape kind).gather source find = .ok effect) {find' : String → Option Doc}
    {doc : Doc} (some : find' "condition" = some doc)
    (others : ∀ name, name ≠ "condition" → find' name = find name) (effect' : Effect) :
    (Effect.shape kind).gather source find' = .ok effect' ↔
      ∃ condition, nullable Condition.read source doc = .ok condition ∧
        { effect with condition } = effect' := by
  obtain ⟨ungated, ends⟩ := shape_endsGated kind
  have fresh := ends.condition_notMem (List.nodup_cons.1 (Effect.nodup_names kind)).2
  rw [ends.1, Shape.gather_optional_eq_ok_iff] at gathered ⊢
  obtain ⟨build, gathered, absent, taken, rfl⟩ := gathered
  rw [none] at taken
  obtain rfl : Option.none = absent := Except.ok.inj taken
  have same : ungated.gather source find' = .ok build := by
    rw [← gathered]
    exact Shape.gather_congr fun name own => others name fun gate => fresh (gate ▸ own)
  simp only [same, some, Except.ok.injEq, exists_eq_left', Field.take]
  refine exists_congr fun condition => and_congr_right fun _ => ?_
  rw [ends.2 build (Shape.built_of_gather gathered) condition]

/-- An effect that reads without a condition reads with one in front of it if that can be kept and
is a condition, or null, and then it is the same effect under that condition. -/
theorem read_cons_condition {members : List (Quoted × Doc)} {source : Source} {effect : Effect}
    (reads : Effect.read source (.object members .closed) = .ok effect)
    (ungated : ∀ member ∈ members, member.1.value ≠ .ok "condition") {key : Quoted} {doc : Doc}
    (named : key.value = .ok "condition") (effect' : Effect) :
    Effect.read source (.object ((key, doc) :: members) .closed) = .ok effect' ↔
      doc.check = .ok () ∧ ∃ condition, nullable Condition.read .buffer doc = .ok condition ∧
        { effect with condition } = effect' := by
  have other : "condition" ≠ tagMember := by decide
  obtain ⟨w, tags, passes, gathered⟩ := tagged_object_eq_ok_iff.1 reads
  have fresh : valuesOf (payload members) "condition" = [] := by
    rw [valuesOf_payload other]
    exact valuesOf_eq_nil_iff.2 ungated
  have own : "condition" ∈ (Effect.record w).shape.names := by
    obtain ⟨_, ends⟩ := shape_endsGated w
    exact ends.names ▸ List.mem_append_right _ (List.mem_singleton.2 rfl)
  have allowed : (Effect.record w).allow [] "condition" = .ok () :=
    ((Effect.record w).allow_eq_ok_iff [] "condition").2 ⟨.inl own, fun _ => List.not_mem_nil⟩
  have absent : lookup (payload members) "condition" = none := by
    rw [lookup_eq_head?, fresh]
    rfl
  have gated := gather_condition absent gathered (lookup_cons_self named doc (payload members))
    (fun name different => lookup_cons_other named doc (payload members) different.symm) effect'
  refine tagged_object_eq_ok_iff.trans ?_
  rw [payload_cons_other named doc members other]
  constructor
  · rintro ⟨w', tags', passes', gathered'⟩
    obtain ⟨checked, tags'⟩ := (tags_cons_other named other).1 tags'
    obtain rfl := tags.unique tags'
    exact ⟨checked, gated.1 gathered'⟩
  · rintro ⟨checked, condition, read, same⟩
    refine ⟨w, (tags_cons_other named other).2 ⟨checked, tags⟩, ?_,
      gated.2 ⟨condition, read, same⟩⟩
    exact (Record.passes_cons named).2 ⟨allowed, (inspectValue_condition w doc).2 ⟨condition, read⟩,
      (Record.passes_unseen fresh).2 passes⟩

end Effect

/-! ## Conditions of their own and in effects -/

/-- A reader of values that may be null takes what is not null for what it is, once it is kept. -/
theorem kept_nullable_iff {α : Type} {read : Reader α} {doc : Doc} (present : doc ≠ .null)
    {P : Option α → Prop} :
    (doc.check = .ok () ∧ ∃ value, nullable read .buffer doc = .ok value ∧ P value) ↔
      ∃ a, (doc.check = .ok () ∧ read .buffer doc = .ok a) ∧ P (some a) := by
  have reads (checked : doc.check = .ok ()) (value : Option α) :
      nullable read .buffer doc = .ok value ↔ ∃ a, read .buffer doc = .ok a ∧ value = some a := by
    refine nullable_eq_ok_iff present fun breakage broken => ?_
    rw [broken] at checked
    cases checked
  constructor
  · rintro ⟨checked, value, read, holds⟩
    obtain ⟨a, inner, rfl⟩ := (reads checked value).1 read
    exact ⟨a, ⟨checked, inner⟩, holds⟩
  · rintro ⟨a, ⟨checked, inner⟩, holds⟩
    exact ⟨checked, some a, (reads checked _).2 ⟨a, inner, rfl⟩, holds⟩

theorem Effect.read_middle_iff {before after : List (Quoted × Doc)} {member : Quoted × Doc}
    {source : Source} {effect : Effect} :
    Effect.read source (.object (before ++ member :: after) .closed) = .ok effect ↔
      Effect.read source (.object (member :: (before ++ after)) .closed) = .ok effect :=
  ⟨unordered_effect.keeps (.members .closed List.perm_middle),
    unordered_effect.keeps (.members .closed List.perm_middle.symm)⟩

/-- A condition is read from its own text exactly as it is read as a member of an effect: of texts
that are not null, have no empty object anywhere, and have no members but those of a condition, the
same are read both ways, as the same condition, and nothing else about the effect changes. -/
theorem condition_reads_alike {doc : Doc} {alone : String} (spelled : doc.IsText alone)
    (present : doc ≠ .null) (full : ¬ doc.HasEmpty)
    (known : ∀ members ending, doc = .object members ending → ∀ member ∈ members,
      ∃ name ∈ ["type", "value", "comparison"], member.1.value = .ok name)
    (before after : List (Quoted × Doc)) {plain : String}
    (ungated : ∀ member ∈ before ++ after, member.1.value ≠ .ok "condition")
    (spelled' : Doc.IsText (.object (before ++ after) .closed) plain)
    {effect : Effect} (reads : Effect.read.ofText plain = .ok effect)
    (key : Quoted) (named : key.value = .ok "condition") {gated : String}
    (spelled'' : Doc.IsText (.object (before ++ (key, doc) :: after) .closed) gated)
    (effect' : Effect) :
    Effect.read.ofText gated = .ok effect' ↔
      ∃ condition, Condition.read.ofText alone = .ok condition ∧
        effect.gatedBy condition = effect' := by
  have limited (members : List (Quoted × Doc)) :
      (Doc.object members .closed).limitDepth Doc.maxDepth =
        .object (Doc.limitMembers (Doc.maxDepth - 1) members) .closed := rfl
  rw [spelled'.ofText, limited, Doc.limitMembers_eq_map] at reads
  rw [spelled''.ofText, limited, Doc.limitMembers_eq_map, List.map_append, List.map_cons,
    Effect.read_middle_iff, ← List.map_append, Effect.read_cons_condition reads ?_ named,
    kept_nullable_iff (mt Doc.limitDepth_eq_null_iff.1 present), spelled.ofText]
  · refine exists_congr fun condition => and_congr_left fun _ => ?_
    exact (Condition.record.read_buffers buffers_condition full known (by decide) (by decide)
      condition).symm
  · rw [List.forall_mem_map]
    exact ungated

/-- A condition with its tag as an object, between the members of an effect. -/
theorem withering_reads_alike :
    let condition : Condition := { kind := .turnCount, operand := some (.number 2) }
    let alone := "\x7b\"value\":2,\"type\":\x7b\"turn-count\":null\x7d\x7d"
    let plain := "\x7b\"type\":\"destroy\",\"target\":\"self\"\x7d"
    let gated := "\x7b\"type\":\"destroy\",\"condition\":" ++ alone ++ ",\"target\":\"self\"\x7d"
    Condition.read.ofText alone = .ok condition ∧
      Effect.read.ofText plain = .ok (.destroy (.known .itself)) ∧
      Effect.read.ofText gated = .ok ((Effect.destroy (.known .itself)).gatedBy condition) := by
  intro condition alone plain gated
  let gate : Json :=
    .object [("value", .number (.int 2)), ("type", .object [("turn-count", .null)])]
  have read : Condition.read.ofText alone = .ok condition := eq_ok_of_toOption (by decide +kernel)
  have reads : Effect.read.ofText plain = .ok (.destroy (.known .itself)) :=
    eq_ok_of_toOption (by decide +kernel)
  have fits : Fits 2 gate := by
    refine .object fun member listed => ?_
    simp only [List.mem_cons, List.not_mem_nil, or_false] at listed
    rcases listed with rfl | rfl
    · exact .int (by unfold InRange; decide)
    · exact .object (by simp [Fits.null])
  have fits' : Fits 1 (.object [("type", .string "destroy"), ("target", .string "self")]) :=
    .object (by simp [Fits.string])
  have fits'' : Fits 3 (.object [("type", .string "destroy"), ("condition", gate),
      ("target", .string "self")]) :=
    .object (by simp [Fits.string, fits])
  have spelled : gate.toDoc.IsText alone := fits.isText_compact
  have full : ¬ gate.toDoc.HasEmpty := by
    rintro (_ | _ | ⟨_, listed, inside⟩)
    simp only [memberDocs, toDoc, List.mem_cons, Prod.mk.injEq, List.not_mem_nil, or_false]
      at listed
    rcases listed with ⟨_, rfl⟩ | ⟨_, rfl⟩
    · cases inside
    · rcases inside with _ | _ | ⟨_, listed, inside⟩
      obtain ⟨_, rfl⟩ := Prod.mk.inj (List.mem_singleton.1 listed)
      cases inside
  have present : gate.toDoc ≠ .null := fun same => by cases same
  refine ⟨read, reads, ?_⟩
  refine (condition_reads_alike spelled present full ?_
    [(.ofText "type", .string (.ofText "destroy"))] [(.ofText "target", .string (.ofText "self"))] ?_
    fits'.isText_compact reads (.ofText "condition") rfl fits''.isText_compact _).2
    ⟨condition, read, rfl⟩
  · rintro members ending same member listed
    obtain ⟨rfl, _⟩ := Doc.object.inj same
    simp only [memberDocs, List.mem_cons, List.not_mem_nil, or_false] at listed
    rcases listed with rfl | rfl
    · exact ⟨"value", by simp, rfl⟩
    · exact ⟨"type", by simp, rfl⟩
  · intro member listed
    simp only [List.singleton_append, List.mem_cons, List.not_mem_nil, or_false] at listed
    rcases listed with rfl | rfl <;> simp [Quoted.value_ofText]

end RulesText
