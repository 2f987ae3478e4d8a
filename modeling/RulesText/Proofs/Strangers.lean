import RulesText.Proofs.CounterConditions
import RulesText.Proofs.OneMember

/-!
# Members that nobody knows

Abilities, conditions and computed amounts pass over members that they do not know, wherever these
stand and however often; effects and costs refuse them. The one may be nested in the other: a
condition is kept with its effect before anyone looks for the members that it knows.
-/

namespace RulesText.Json
open RulesText.Format

namespace Doc

/-! ## Documents with one member more -/

/-- An object with one member more, which has a text, of a name that is none of those given, and
with a value that can be read completely and has fewer than 100 containers nested in one another. -/
inductive Gains (names : List String) (name : String) : Doc → Doc → Prop
  | mk (before after : List (Quoted × Doc)) {key : Quoted} {value : Doc}
    (named : key.value = .ok name) (foreign : name ∉ names) (checked : value.check = .ok ())
    (shallow : value.limitDepth 99 = value) (spellable : SpellableMember (key, value))
    (ending : ObjectEnd) :
    Gains names name (.object (before ++ after) ending)
      (.object (before ++ (key, value) :: after) ending)

/-- Records that differ in the document of one member only, which are related. -/
inductive Within (names : List String) (name : String) (related : Doc → Doc → Prop) :
    Doc → Doc → Prop
  | mk {fill : Doc → Doc} (around : Around names name fill) {inner inner' : Doc}
    (inside : related inner inner') : Within names name related (fill inner) (fill inner')

/-- Lists that differ in one item only, which are related. -/
inductive Among (related : Doc → Doc → Prop) : Doc → Doc → Prop
  | mk (before after : List Doc) (ending : ListEnd) {item item' : Doc}
    (inside : related item item') : Among related (.array (before ++ item :: after) ending)
      (.array (before ++ item' :: after) ending)

/-- Any plain value may be gained. -/
theorem Gains.of_fits {names : List String} {name : String} (foreign : name ∉ names) {json : Json}
    (fits : Fits 99 json) (before after : List (Quoted × Doc)) :
    Gains names name (.object (before ++ after) .closed)
      (.object (before ++ (.ofText name, json.toDoc) :: after) .closed) :=
  .mk before after (Quoted.value_ofText name) foreign fits.check fits.limitDepth
    ⟨⟨_, printedInside_spells name⟩, ⟨_, fits.compact_spells⟩⟩ .closed

theorem Gains.check {names : List String} {name : String} {doc doc' : Doc}
    (gains : Gains names name doc doc') (whole : doc.check = .ok ()) : doc'.check = .ok () := by
  cases gains with
  | mk before after named _ checked _ _ ending =>
    rw [check_object_iff] at whole ⊢
    refine ⟨fun member listed => ?_, whole.2⟩
    rcases List.mem_cons.1 (List.perm_middle.mem_iff.1 listed) with rfl | among
    · exact ⟨⟨_, named⟩, checked⟩
    · exact whole.1 member among

/-! ## Texts -/

/-- Whether one document can be spelled if the other can. -/
def KeepsText (doc doc' : Doc) : Prop :=
    (∃ body, Json.Spells doc body) → ∃ body, Json.Spells doc' body

theorem Gains.keepsText {names : List String} {name : String} {doc doc' : Doc}
    (gains : Gains names name doc doc') : KeepsText doc doc' := by
  intro spelled
  cases gains with
  | mk before after _ _ _ _ spellable ending =>
    rw [exists_spells_object_iff] at spelled ⊢
    refine ⟨spelled.1, fun member listed => ?_⟩
    rcases List.mem_cons.1 (List.perm_middle.mem_iff.1 listed) with rfl | among
    · exact spellable
    · exact spelled.2 member among

theorem Within.keepsText {names : List String} {name : String} {related : Doc → Doc → Prop}
    (keeps : ∀ {inner inner'}, related inner inner' → KeepsText inner inner') {doc doc' : Doc}
    (within : Within names name related doc doc') : KeepsText doc doc' := by
  intro spelled
  cases within with
  | mk around inside =>
    cases around with
    | member before after _ ending =>
      rw [exists_spells_object_iff] at spelled ⊢
      exact ⟨spelled.1, forall_mem_exchange spelled.2 fun ⟨named, body⟩ =>
        ⟨named, keeps inside body⟩⟩
    | item _ after ending =>
      rw [exists_spells_array_iff] at spelled ⊢
      exact ⟨spelled.1, forall_mem_exchange spelled.2 (keeps inside)⟩

theorem Among.keepsText {related : Doc → Doc → Prop}
    (keeps : ∀ {item item'}, related item item' → KeepsText item item') {doc doc' : Doc}
    (among : Among related doc doc') : KeepsText doc doc' := by
  intro spelled
  cases among with
  | mk before after ending inside =>
    rw [exists_spells_array_iff] at spelled ⊢
    exact ⟨spelled.1, forall_mem_exchange spelled.2 (keeps inside)⟩

/-! ## Depth -/

mutual

/-- A document that is whole where only so many containers are, is whole where more are. -/
theorem limitDepth_of_le (doc : Doc) {near far : Nat} (le : near ≤ far)
    (whole : doc.limitDepth near = doc) : doc.limitDepth far = doc := by
  match doc, near, far with
  | .array _ _, 0, _ | .object _ _, 0, _ => cases whole
  | .array items ending, near + 1, far + 1 =>
    rw [limitDepth] at whole ⊢
    rw [limitItems_of_le items (Nat.le_of_succ_le_succ le) (Doc.array.inj whole).1]
  | .object members ending, near + 1, far + 1 =>
    rw [limitDepth] at whole ⊢
    rw [limitMembers_of_le members (Nat.le_of_succ_le_succ le) (Doc.object.inj whole).1]
  | .null, _, _ | .bool _, _, _ | .number _, _, _ | .string _, _, _ | .deep _, _, _
  | .broken _, _, _ => rfl

theorem limitItems_of_le (items : List Doc) {near far : Nat} (le : near ≤ far)
    (whole : limitItems near items = items) : limitItems far items = items := by
  match items with
  | [] => rfl
  | item :: items =>
    obtain ⟨first, others⟩ := List.cons.inj whole
    rw [limitItems, limitDepth_of_le item le first, limitItems_of_le items le others]

theorem limitMembers_of_le (members : List (Quoted × Doc)) {near far : Nat} (le : near ≤ far)
    (whole : limitMembers near members = members) : limitMembers far members = members := by
  match members with
  | [] => rfl
  | (key, value) :: members =>
    obtain ⟨first, others⟩ := List.cons.inj whole
    rw [limitMembers, limitDepth_of_le value le (Prod.mk.inj first).2,
      limitMembers_of_le members le others]

end

theorem Gains.limitDepth {names : List String} {name : String} {doc doc' : Doc}
    (gains : Gains names name doc doc') {room : Nat} (enough : 99 ≤ room) :
    Gains names name (doc.limitDepth (room + 1)) (doc'.limitDepth (room + 1)) := by
  cases gains with
  | mk before after named foreign checked shallow spellable ending =>
    simp only [Doc.limitDepth, limitMembers_eq_map, List.map_append, List.map_cons,
      limitDepth_of_le _ enough shallow]
    exact .mk _ _ named foreign checked shallow spellable ending

theorem Around.limitDepth {names : List String} {name : String} {fill : Doc → Doc}
    (around : Around names name fill) (room : Nat) : ∃ fill', Around names name fill' ∧
      ∀ inner, (fill inner).limitDepth (room + 1) = fill' (inner.limitDepth room) := by
  cases around with
  | member before after named ending =>
    refine ⟨_, .member (limitMembers room before) (limitMembers room after) named ending,
      fun inner => ?_⟩
    simp only [Doc.limitDepth, limitMembers_eq_map, List.map_append, List.map_cons]
  | @item before placed after ending =>
    have placed' : names[(limitItems room before).length]? = some name := by
      rwa [limitItems_eq_map, List.length_map]
    refine ⟨_, .item placed' (limitItems room after) ending, fun inner => ?_⟩
    simp only [Doc.limitDepth, limitItems_eq_map, List.map_append, List.map_cons]

theorem Within.limitDepth {names : List String} {name : String}
    {related related' : Doc → Doc → Prop} {room : Nat}
    (keeps : ∀ {inner inner'}, related inner inner' →
      related' (inner.limitDepth room) (inner'.limitDepth room))
    {doc doc' : Doc} (within : Within names name related doc doc') :
    Within names name related' (doc.limitDepth (room + 1)) (doc'.limitDepth (room + 1)) := by
  cases within with
  | mk around inside =>
    obtain ⟨fill', around', same⟩ := around.limitDepth room
    rw [same, same]
    exact .mk around' (keeps inside)

theorem Among.limitDepth {related related' : Doc → Doc → Prop} {room : Nat}
    (keeps : ∀ {item item'}, related item item' →
      related' (item.limitDepth room) (item'.limitDepth room))
    {doc doc' : Doc} (among : Among related doc doc') :
    Among related' (doc.limitDepth (room + 1)) (doc'.limitDepth (room + 1)) := by
  cases among with
  | mk before after ending inside =>
    simp only [Doc.limitDepth, limitItems_eq_map, List.map_append, List.map_cons]
    exact .mk _ _ ending (keeps inside)

end Doc

end RulesText.Json

namespace RulesText.Format
open RulesText.Json

variable {α β : Type} {source : Source} {fault? : Option Fault}

/-! ## What becomes of a value -/

/-- Whether whatever is read from a document is, from another one, read again or, if a fault is
given, refused with that fault. -/
def Becomes (read : Doc → Except Fault α) (fault? : Option Fault) (doc doc' : Doc) : Prop :=
  ∀ value, read doc = .ok value → read doc' = fault?.elim (.ok value) .error

/-- What is built of a value is built again or refused as the value is. -/
theorem map_elim (build : β → α) {inner : Except Fault β} {b : β} (read : inner = .ok b) {value : α}
    (built : build <$> inner = .ok value) :
    (build <$> (fault?.elim (.ok b) .error : Except Fault β)) = fault?.elim (.ok value) .error := by
  subst read
  obtain rfl : build b = value := Except.ok.inj built
  cases fault? <;> rfl

namespace Becomes

/-- What depends on a document through a reader becomes what the reader makes of it. -/
theorem of_around {outer : Doc → Except Fault α} {inner : Doc → Except Fault β}
    (fill : Doc → Doc) {item item' : Doc} (becomes : Becomes inner fault? item item')
    (depends : ∀ value, outer (fill item) = .ok value → ∃ build : β → α,
      outer (fill item) = build <$> inner item ∧ outer (fill item') = build <$> inner item') :
    Becomes outer fault? (fill item) (fill item') := by
  intro value done
  obtain ⟨build, same, other⟩ := depends value done
  rw [same] at done
  obtain ⟨b, read, _⟩ := bind_eq_ok done
  rw [other, becomes b read, map_elim build read done]

/-- One member of a record. -/
theorem record {record : Record α} {field : Field β} (has : record.shape.Has field)
    (distinct : record.shape.names.Nodup) {related : Doc → Doc → Prop}
    (inside : ∀ {inner inner'}, related inner inner' →
      Becomes (field.read source) fault? inner inner') {doc doc' : Doc}
    (within : Doc.Within record.shape.names field.name related doc doc') :
    Becomes (record.read source) fault? doc doc' := by
  cases within with
  | @mk fill around _ _ here =>
    refine (inside here).of_around fill fun value done => ?_
    obtain ⟨build, depends⟩ := Record.read_around has distinct around done
    exact ⟨build, depends _, depends _⟩

/-- One member of a record with a tag, if it can still be kept. -/
theorem tagged {κ : Type} [Vocabulary κ] {record : κ → Record α} {title : String} {w : κ}
    {field : Field β} (has : (record w).shape.Has field)
    (distinct : (tagMember :: (record w).shape.names).Nodup) {related : Doc → Doc → Prop}
    (keeps : ∀ {inner inner'}, related inner inner' → inner.check = .ok () → inner'.check = .ok ())
    (inside : ∀ {inner inner'}, related inner inner' →
      Becomes (field.read .buffer) fault? inner inner') {doc doc' : Doc}
    (typed : doc.HasKind w)
    (within : Doc.Within (tagMember :: (record w).shape.names) field.name related doc doc') :
    Becomes (Format.tagged title record source) fault? doc doc' := by
  cases within with
  | @mk fill around _ _ here =>
    refine (inside here).of_around fill fun value done => ?_
    obtain ⟨checked, build, depends⟩ := tagged_around has distinct around typed done
    exact ⟨build, depends _ checked, depends _ (keeps here checked)⟩

/-- One item of a list. -/
theorem list {read : Reader α} {related : Doc → Doc → Prop}
    (inside : ∀ {item item'}, related item item' → Becomes (read source) fault? item item')
    {doc doc' : Doc} (among : Doc.Among related doc doc') :
    Becomes (Format.list read source) fault? doc doc' := by
  cases among with
  | mk before after ending here =>
    refine (inside here).of_around (fun item => .array (before ++ item :: after) ending)
      fun value done => ?_
    obtain ⟨build, depends⟩ := list_around done
    exact ⟨build, depends _, depends _⟩

/-- An object where null might stand. -/
theorem nullable {read : Reader α} {names : List String} {name : String} {doc doc' : Doc}
    (gains : doc.Gains names name doc') (inside : Becomes (read source) fault? doc doc') :
    Becomes (Format.nullable read source) fault? doc doc' := by
  cases gains
  exact inside.of_around id fun value done => ⟨some, rfl, rfl⟩

end Becomes

/-! ## Open records -/

namespace Record

variable {record : Record α} {name : String} {doc doc' : Doc}

theorem passes_foreign {members : List (Quoted × Doc)} (foreign : name ∉ record.shape.names)
    (passes : record.Passes source [] members) : record.Passes source [name] members := by
  refine ⟨passes.each, fun own known => ?_⟩
  have different : own ∉ [name] := fun listed => foreign (List.mem_singleton.1 listed ▸ known)
  rw [if_neg different]
  exact passes.once own known

/-- An open record is the same with a member that it does not know. -/
theorem becomes_same (lenient : record.lenient = true)
    (gains : doc.Gains record.shape.names name doc') :
    Becomes (record.read source) none doc doc' := by
  intro value done
  cases gains with
  | @mk before after key stranger named foreign checked _ _ ending =>
    obtain ⟨closed, passes, gathered⟩ := ofMembers_eq_ok_iff.1 done
    have inspected : record.inspectValue source name stranger = .ok () := by
      rw [inspectValue, Shape.probe?_eq_none foreign]
      exact Doc.skim_of_check stranger checked
    refine ofMembers_eq_ok_iff.2 ⟨closed, (passes_middle named).2 ⟨?_, inspected, ?_⟩, ?_⟩
    · exact (allow_eq_ok_iff _ _ _).2 ⟨.inr lenient, fun own => absurd own foreign⟩
    · exact passes_foreign foreign passes
    · rw [← gathered]
      exact Shape.gather_congr fun own known =>
        lookup_middle_other named (fun same => foreign (same ▸ known)) stranger

/-! ## Closed records -/

theorem allow_foreign (strict : record.lenient = false) (foreign : name ∉ record.shape.names)
    (seen : List String) : record.allow seen name =
      .error (.mismatch (.unknownMember name record.shape.names)) := by
  rw [allow, if_neg foreign, strict]
  rfl

/-- A closed record refuses a member that it does not know, naming it and those that it knows. -/
theorem ofMembers_foreign (strict : record.lenient = false) (foreign : name ∉ record.shape.names)
    {before after : List (Quoted × Doc)} {key : Quoted} (named : key.value = .ok name) {value : α}
    (done : record.ofMembers source (before ++ after) .closed = .ok value) (stranger : Doc) :
    record.ofMembers source (before ++ (key, stranger) :: after) .closed =
      .error (.mismatch (.unknownMember name record.shape.names)) := by
  obtain ⟨closed, passes, _⟩ := ofMembers_eq_ok_iff.1 done
  obtain ⟨seen, front⟩ := inspect_front (inspect_eq_ok_iff.2 ⟨closed, passes⟩)
  rw [ofMembers, front, inspect, named]
  show ((record.allow seen name >>= fun _ => _) >>= fun _ => _) = _
  rw [allow_foreign strict foreign]
  rfl

end Record

/-- So does one with a tag. -/
theorem tagged_refuses {κ : Type} [Vocabulary κ] {record : κ → Record α} {title : String} {w : κ}
    (strict : (record w).lenient = false) {name : String} {doc doc' : Doc} (typed : doc.HasKind w)
    (gains : doc.Gains (tagMember :: (record w).shape.names) name doc') :
    Becomes (tagged title record source)
      (some (.mismatch (.unknownMember name (record w).shape.names))) doc doc' := by
  intro value done
  cases gains with
  | @mk before after key stranger named foreign checked _ _ ending =>
    rw [List.mem_cons, not_or] at foreign
    obtain ⟨rfl, w', tags, kept⟩ := of_tagged_object done
    obtain rfl := (hasKind_of_tags tags).unique typed
    rw [payload_append] at kept
    rw [tagged_object ((tags_middle_other named foreign.1).2 ⟨checked, tags⟩),
      payload_middle_other named foreign.1]
    exact Record.ofMembers_foreign strict foreign.2 named kept stranger

end RulesText.Format

namespace RulesText
open Format Json

/-! ## Amounts -/

theorem AmountForm.formula?_gains {name : String} {doc doc' : Doc}
    (gains : doc.Gains ["formula"] name doc') : formula? doc' = formula? doc := by
  cases gains with
  | @mk before after key value named foreign _ _ _ ending =>
    have other : ¬ key.is "formula" = true := by
      rw [Quoted.is_eq_true_iff, named]
      exact fun same => foreign (List.mem_singleton.2 (Except.ok.inj same))
    simp only [formula?, List.filter_append, List.filter_cons, other, if_false, Bool.false_eq_true]

/-- A computed amount heeds its formula only. -/
theorem becomes_form {source : Source} {name : String} {doc doc' : Doc}
    (gains : doc.Gains ["formula"] name doc') :
    Becomes (AmountForm.read source) none doc doc' := by
  intro form done
  obtain ⟨checked, done⟩ := seq_eq_ok_iff.1 done
  have same : AmountForm.ofDoc? doc' = AmountForm.ofDoc? doc := by
    have formula := AmountForm.formula?_gains gains
    cases gains
    rw [AmountForm.ofDoc?_object, AmountForm.ofDoc?_object, formula]
  refine seq_eq_ok_iff.2 ⟨gains.check checked, ?_⟩
  rw [same]
  exact done

theorem becomes_damage {source : Source} {name : String} {doc doc' : Doc}
    (gains : doc.Gains ["formula"] name doc') :
    Becomes (DamageAmount.read source) none doc doc' := by
  intro amount done
  obtain ⟨form, read, done⟩ := bind_eq_ok done
  exact bind_eq_ok_iff.2 ⟨form, becomes_form gains form read, done⟩

theorem becomes_heal {source : Source} {name : String} {doc doc' : Doc}
    (gains : doc.Gains ["formula"] name doc') :
    Becomes (HealAmount.read source) none doc doc' := by
  intro amount done
  obtain ⟨form, read, done⟩ := bind_eq_ok done
  exact bind_eq_ok_iff.2 ⟨form, becomes_form gains form read, done⟩

/-! ## Effects -/

/-- An effect whose condition or whose computed amount gains a member that it does not know. -/
inductive Effect.Widens : Doc → Doc → Prop
  | amount {kind : EffectKind} (computable : kind = .dealDamage ∨ kind = .heal) {name : String}
    {doc doc' : Doc} (typed : doc.HasKind kind)
    (within : Doc.Within (tagMember :: (Effect.shape kind).names) "value"
      (Doc.Gains ["formula"] name) doc doc') : Widens doc doc'
  | condition {kind : EffectKind} {name : String} {doc doc' : Doc} (typed : doc.HasKind kind)
    (within : Doc.Within (tagMember :: (Effect.shape kind).names) "condition"
      (Doc.Gains ["type", "value", "comparison"] name) doc doc') : Widens doc doc'

theorem Effect.has_condition (kind : EffectKind) : (Effect.record kind).shape.Has
    ⟨"condition", nullable Condition.read, some none⟩ := by
  obtain ⟨ungated, ends⟩ := shape_endsGated kind
  show (Effect.shape kind).Has _
  rw [ends.1]
  exact .seq_right (.here _) _

theorem Effect.Widens.becomes {source : Source} {doc doc' : Doc} (widens : Effect.Widens doc doc') :
    Becomes (Effect.read source) none doc doc' := by
  cases widens with
  | @amount kind computable name _ _ typed within =>
    rcases computable with rfl | rfl
    · have has : (Effect.record .dealDamage).shape.Has ⟨"value", DamageAmount.read, none⟩ :=
        .seq_left (.seq_left (.seq_right (.seq_left (.map (.here _) _) _) _) _) _
      exact Becomes.tagged has (Effect.nodup_names _) (fun gains => gains.check)
        (fun gains => becomes_damage gains) typed within
    · have has : (Effect.record .heal).shape.Has ⟨"value", HealAmount.read, none⟩ :=
        .seq_left (.seq_left (.seq_right (.map (.here _) _) _) _) _
      exact Becomes.tagged has (Effect.nodup_names _) (fun gains => gains.check)
        (fun gains => becomes_heal gains) typed within
  | @condition kind name _ _ typed within =>
    exact Becomes.tagged (Effect.has_condition kind) (Effect.nodup_names kind)
      (fun gains => gains.check) (fun gains => .nullable gains (Record.becomes_same rfl gains))
      typed within

theorem Effect.Widens.limitDepth {doc doc' : Doc} (widens : Effect.Widens doc doc') {room : Nat}
    (enough : 99 ≤ room) :
    Effect.Widens (doc.limitDepth (room + 2)) (doc'.limitDepth (room + 2)) := by
  cases widens with
  | amount computable typed within =>
    exact .amount computable (typed.limitDepth _)
      (within.limitDepth fun gains => gains.limitDepth enough)
  | condition typed within =>
    exact .condition (typed.limitDepth _) (within.limitDepth fun gains => gains.limitDepth enough)

theorem Effect.Widens.keepsText {doc doc' : Doc} (widens : Effect.Widens doc doc') :
    doc.KeepsText doc' := by
  cases widens with
  | amount _ _ within => exact within.keepsText fun gains => gains.keepsText
  | condition _ within => exact within.keepsText fun gains => gains.keepsText

/-! ## Abilities -/

/-- An ability in which an open object gains a member that it does not know: the ability itself, or
the condition or computed amount of one of its effects. -/
inductive Ability.Widens : Doc → Doc → Prop
  | itself {name : String} {doc doc' : Doc} (gains : doc.Gains Ability.shape.names name doc') :
    Widens doc doc'
  | effect {doc doc' : Doc} (within : Doc.Within Ability.shape.names "effects"
      (Doc.Among Effect.Widens) doc doc') : Widens doc doc'

/-- An ability in which a closed object gains a member that is none of those known to it: the cost,
or one of the effects. -/
inductive Ability.Oversteps (name : String) (known : List String) : Doc → Doc → Prop
  | cost {kind : CostKind} (own : known = (Cost.shape kind).names) {doc doc' : Doc}
    (within : Doc.Within Ability.shape.names "cost" (fun cost cost' => cost.HasKind kind ∧
      cost.Gains (tagMember :: known) name cost') doc doc') : Oversteps name known doc doc'
  | effect {kind : EffectKind} (own : known = (Effect.shape kind).names) {doc doc' : Doc}
    (within : Doc.Within Ability.shape.names "effects" (Doc.Among fun effect effect' =>
      effect.HasKind kind ∧ effect.Gains (tagMember :: known) name effect') doc doc') :
    Oversteps name known doc doc'

theorem Ability.has_cost : Ability.record.shape.Has ⟨"cost", nullable Cost.read, some none⟩ :=
  .seq_left (.seq_left (.seq_left (.seq_right (.here _) _) _) _) _

theorem Ability.has_effects : Ability.record.shape.Has ⟨"effects", list Effect.read, some []⟩ :=
  .seq_left (.seq_left (.seq_right (.here _) _) _) _

theorem Ability.Widens.becomes {source : Source} {doc doc' : Doc}
    (widens : Ability.Widens doc doc') : Becomes (Ability.read source) none doc doc' := by
  cases widens with
  | itself gains => exact Record.becomes_same rfl gains
  | effect within =>
    exact Becomes.record Ability.has_effects (by decide)
      (fun among => .list (fun widens => widens.becomes) among) within

theorem Ability.Oversteps.becomes {source : Source} {name : String} {known : List String}
    {doc doc' : Doc} (oversteps : Ability.Oversteps name known doc doc') :
    Becomes (Ability.read source) (some (.mismatch (.unknownMember name known))) doc doc' := by
  cases oversteps with
  | cost own within =>
    subst own
    exact Becomes.record Ability.has_cost (by decide)
      (fun gains => .nullable gains.2 (tagged_refuses rfl gains.1 gains.2)) within
  | effect own within =>
    subst own
    exact Becomes.record Ability.has_effects (by decide)
      (fun among => .list (fun gains => tagged_refuses rfl gains.1 gains.2) among) within

theorem Ability.Widens.keepsText {doc doc' : Doc} (widens : Ability.Widens doc doc') :
    doc.KeepsText doc' := by
  cases widens with
  | itself gains => exact gains.keepsText
  | effect within =>
    exact within.keepsText fun among => among.keepsText fun widens => widens.keepsText

theorem Ability.Oversteps.keepsText {name : String} {known : List String} {doc doc' : Doc}
    (oversteps : Ability.Oversteps name known doc doc') : doc.KeepsText doc' := by
  cases oversteps with
  | cost _ within => exact within.keepsText fun gains => gains.2.keepsText
  | effect _ within =>
    exact within.keepsText fun among => among.keepsText fun gains => gains.2.keepsText

theorem Ability.Widens.limitDepth {doc doc' : Doc} (widens : Ability.Widens doc doc') :
    Ability.Widens (doc.limitDepth Doc.maxDepth) (doc'.limitDepth Doc.maxDepth) := by
  cases widens with
  | itself gains => exact .itself (gains.limitDepth (by decide))
  | effect within =>
    exact .effect (within.limitDepth fun among => among.limitDepth fun widens =>
      widens.limitDepth (by decide))

theorem Ability.Oversteps.limitDepth {name : String} {known : List String} {doc doc' : Doc}
    (oversteps : Ability.Oversteps name known doc doc') :
    Ability.Oversteps name known (doc.limitDepth Doc.maxDepth) (doc'.limitDepth Doc.maxDepth) := by
  cases oversteps with
  | cost own within =>
    exact .cost own (within.limitDepth fun gains =>
      ⟨gains.1.limitDepth _, gains.2.limitDepth (by decide)⟩)
  | effect own within =>
    exact .effect own (within.limitDepth fun among => among.limitDepth fun gains =>
      ⟨gains.1.limitDepth _, gains.2.limitDepth (by decide)⟩)

/-- Every text that is read as an ability is a text of some document. If in such a document the
ability itself, or the condition or computed amount of one of its effects, gains a member that it
does not know, there is a text of it, and every such text is read as the same ability. If the cost
or one of the effects does, every text is refused, and the fault names that member and those that
are known. -/
theorem strangers_ignored_or_refused (text : String) (ability : Ability)
    (reads : Ability.read.ofText text = .ok ability) : (∃ doc, Doc.IsText doc text) ∧
      ∀ doc doc', Doc.IsText doc text →
        (Ability.Widens doc doc' → (∃ text', Doc.IsText doc' text') ∧
          ∀ text', Doc.IsText doc' text' → Ability.read.ofText text' = .ok ability) ∧
        ∀ name known, Ability.Oversteps name known doc doc' → (∃ text', Doc.IsText doc' text') ∧
          ∀ text', Doc.IsText doc' text' →
            Ability.read.ofText text' = .error (.mismatch (.unknownMember name known)) := by
  refine ⟨Doc.exists_isText (fun _ _ => unordered_ability.whole) reads,
    fun doc doc' spelled => ?_⟩
  have spells := Doc.exists_isText_iff.1 ⟨text, spelled⟩
  rw [spelled.ofText] at reads
  refine ⟨fun widens => ⟨Doc.exists_isText_iff.2 (widens.keepsText spells),
      fun text' spelled' => ?_⟩, fun name known oversteps =>
    ⟨Doc.exists_isText_iff.2 (oversteps.keepsText spells), fun text' spelled' => ?_⟩⟩
  · rw [spelled'.ofText]
    exact widens.limitDepth.becomes ability reads
  · rw [spelled'.ofText]
    exact oversteps.limitDepth.becomes ability reads

/-- A note in a condition is ignored, and the same note beside it is refused. -/
theorem note_ignored_or_refused :
    let plain := "\x7b\"name\":\"Fell\",\"effects\":[\x7b\"type\":\"destroy\"," ++
      "\"target\":\"self\",\"condition\":\x7b\"type\":\"is-damaged\"\x7d\x7d]\x7d"
    let inside := "\x7b\"name\":\"Fell\",\"effects\":[\x7b\"type\":\"destroy\"," ++
      "\"target\":\"self\",\"condition\":\x7b\"note\":[\"new\"]," ++
      "\"type\":\"is-damaged\"\x7d\x7d]\x7d"
    let beside := "\x7b\"name\":\"Fell\",\"effects\":[\x7b\"type\":\"destroy\"," ++
      "\"target\":\"self\",\"note\":[\"new\"]," ++
      "\"condition\":\x7b\"type\":\"is-damaged\"\x7d\x7d]\x7d"
    let fells := (Effect.destroy (.known .itself)).gatedBy .damaged
    let ability : Ability := { name := "Fell", effects := [fells] }
    Ability.read.ofText plain = .ok ability ∧ Ability.read.ofText inside = .ok ability ∧
      Ability.read.ofText beside = .error (.mismatch (.unknownMember "note"
        ["target", "duration", "condition"])) := by
  intro plain inside beside fells ability
  have note {room : Nat} : Fits (room + 1) (.array [.string "new"]) :=
    .array (by simp [Fits.string])
  have damaged {room : Nat} : Fits (room + 1) (.object [("type", .string "is-damaged")]) :=
    .object (by simp [Fits.string])
  have noted :
      Fits 2 (.object [("note", .array [.string "new"]), ("type", .string "is-damaged")]) :=
    .object (by simp [Fits.string, note])
  have whole {effect : Json} (fits : Fits 3 effect) :
      Fits 5 (.object [("name", .string "Fell"), ("effects", .array [effect])]) := by
    have listed : Fits 4 (.array [effect]) := .array (by simpa using fits)
    exact .object (by simp [Fits.string, listed])
  have fits : Fits 3 (.object [("type", .string "destroy"), ("target", .string "self"),
      ("condition", .object [("type", .string "is-damaged")])]) :=
    .object (by simp [Fits.string, damaged])
  have fits_inside : Fits 3 (.object [("type", .string "destroy"), ("target", .string "self"),
      ("condition", .object [("note", .array [.string "new"]), ("type", .string "is-damaged")])]) :=
    .object (by simp [Fits.string, noted])
  have fits_beside : Fits 3 (.object [("type", .string "destroy"), ("target", .string "self"),
      ("note", .array [.string "new"]), ("condition", .object [("type", .string "is-damaged")])]) :=
    .object (by simp [Fits.string, note, damaged])
  have reads : Ability.read.ofText plain = .ok ability := eq_ok_of_toOption (by decide +kernel)
  have strangers := (strangers_ignored_or_refused plain ability reads).2
  -- The effects are behind the name of the ability, and this effect is the only one.
  have effects : Doc.Around Ability.shape.names "effects" fun inner =>
      .object [(.ofText "name", .string (.ofText "Fell")), (.ofText "effects", inner)] .closed :=
    .member [(.ofText "name", _)] [] (Quoted.value_ofText _) .closed
  have condition : Doc.Around (tagMember :: (Effect.shape .destroy).names) "condition"
      fun inner => .object [(.ofText "type", .string (.ofText "destroy")),
        (.ofText "target", .string (.ofText "self")), (.ofText "condition", inner)] .closed :=
    .member [(.ofText "type", _), (.ofText "target", _)] [] (Quoted.value_ofText _) .closed
  have typed (members : List (Quoted × Doc)) : (Doc.object ((.ofText "type",
      .string (.ofText "destroy")) :: members) .closed).HasKind EffectKind.destroy :=
    ⟨_, lookup_cons_self (Quoted.value_ofText _) _ _, Quoted.value_ofText _⟩
  have unknown : "note" ∉ ["type", "value", "comparison"] := by decide
  have foreign : "note" ∉ tagMember :: (Effect.shape .destroy).names := by decide
  have widens := Ability.Widens.effect (.mk effects (.mk [] [] .closed (.condition (typed _)
    (.mk condition (.of_fits unknown note [] (memberDocs [("type", .string "is-damaged")]))))))
  have oversteps := Ability.Oversteps.effect rfl (.mk effects (.mk [] [] .closed ⟨typed _,
    .of_fits foreign note (memberDocs [("type", .string "destroy"), ("target", .string "self")])
      (memberDocs [("condition", .object [("type", .string "is-damaged")])])⟩))
  have spelled := (whole fits).isText_compact
  exact ⟨reads, ((strangers _ _ spelled).1 widens).2 _ (whole fits_inside).isText_compact,
    ((strangers _ _ spelled).2 _ _ oversteps).2 _ (whole fits_beside).isText_compact⟩

end RulesText
