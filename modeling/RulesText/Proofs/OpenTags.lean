import RulesText.Proofs.CounterConditions
import RulesText.Proofs.Places

/-!
# Tags of open vocabularies are kept

Whatever string stands where the tag of an open vocabulary is read, it is taken for the known word
with that spelling, if there is one, and kept as it is otherwise, so that it is written as the same
string again. So it is in every place where an ability, an effect, a cost or a condition has such a
tag, however the text gives their members: what is written has the string at the same place.
-/

namespace RulesText.Json

/-- A step from a value to one inside it. -/
inductive Step where
  | member (name : String)
  | item (index : Nat)
  deriving DecidableEq, Repr

/-- The value at the end of a path. -/
def follow? : List Step → Json → Option Json
  | [], value => some value
  | .member name :: path, .object members => (members.lookup name).bind (follow? path)
  | .item index :: path, .array items => items[index]?.bind (follow? path)
  | _, _ => none

theorem follow?_member {members : List (String × Json)} (distinct : (members.map Prod.fst).Nodup)
    {name : String} {value : Json} (listed : (name, value) ∈ members) (path : List Step) :
    follow? (.member name :: path) (.object members) = follow? path value := by
  have found : members.lookup name = some value := by
    obtain ⟨front, back, rfl⟩ := List.append_of_mem listed
    rw [List.map_append, List.nodup_append] at distinct
    refine List.lookup_eq_some_iff.2 ⟨front, back, rfl, fun member before => ?_⟩
    exact bne_iff_ne.2 (distinct.2.2 _ (List.mem_map_of_mem before) _ List.mem_cons_self).symm
  rw [follow?, found, Option.bind_some]

end RulesText.Json

namespace RulesText
open Format Json

/-! ## A tag by itself -/

/-- Whether a reader keeps every string: whatever text spells it, it is read as one value, which is
written as that string again and is unknown exactly if the string is none of the known ones. -/
def KeepsTags {κ : Type} [Vocabulary κ] (read : Reader (OpenTag κ)) (known : List String) : Prop :=
  ∀ tag : String, ∃ value : OpenTag κ, value.spelling = tag ∧ value.toJson = .string tag ∧
    ((∃ raw, value = .unknown raw) ↔ tag ∉ known) ∧
    read.ofText value.toJson.compact = .ok value ∧
    ∀ quoted text, Doc.IsText (.string quoted) text → quoted.value = .ok tag →
      read.ofText text = .ok value

theorem Format.OpenTag.exists_unknown_iff {κ : Type} [Vocabulary κ] {tag : String} :
    (∃ raw, (OpenTag.ofString tag : OpenTag κ) = .unknown raw) ↔
      tag ∉ Vocabulary.spellings κ := by
  have unspelled : (∀ w : κ, Vocabulary.spelling w ≠ tag) ↔ tag ∉ Vocabulary.spellings κ := by
    simp [Vocabulary.spellings, Vocabulary.mem_words]
  rw [← unspelled, ← Vocabulary.find?_eq_none_iff, ← OpenTag.ofString_eq_unknown_iff]
  constructor
  · rintro ⟨raw, same⟩
    have spelled : (OpenTag.ofString tag : OpenTag κ).spelling = tag :=
      OpenTag.spelling_ofString tag
    rw [same] at spelled
    rw [same, ← spelled]
    rfl
  · exact fun same => ⟨tag, same⟩

theorem keepsTags_openTag {κ : Type} [Vocabulary κ] (type : String) :
    KeepsTags (openTag type : Reader (OpenTag κ)) (Vocabulary.spellings κ) := by
  intro tag
  have reads (quoted : Quoted) (text : String) (isText : Doc.IsText (.string quoted) text)
      (spelled : quoted.value = .ok tag) :
      (openTag type : Reader (OpenTag κ)).ofText text = .ok (.ofString tag) := by
    rw [isText.ofText]
    exact openTag_string spelled type .text
  have written : (OpenTag.ofString tag : OpenTag κ).toJson = .string tag :=
    congrArg Json.string (OpenTag.spelling_ofString tag)
  refine ⟨.ofString tag, OpenTag.spelling_ofString tag, written, OpenTag.exists_unknown_iff, ?_,
    reads⟩
  rw [written]
  exact reads _ _ (Fits.string tag : Fits 0 (.string tag)).isText_compact (Quoted.value_ofText tag)

/-- The string that is read as a tag is what is written for it. -/
theorem toJson_of_openTag {κ : Type} [Vocabulary κ] {type : String} {source : Source}
    {quoted : Quoted} {tag : String} {value : OpenTag κ}
    (read : (openTag type : Reader (OpenTag κ)) source (.string quoted) = .ok value)
    (spelled : quoted.value = .ok tag) : value.toJson = .string tag := by
  rw [openTag_string spelled type source] at read
  cases read
  exact congrArg Json.string (OpenTag.spelling_ofString tag)

/-- Behind a tag, members of a record with a tag have names of their own. -/
theorem distinct_of_tagged {members others : List (String × Json)} {written tag : Json}
    {names : List String} (object : written = .object members)
    (tagged : written = .object ((tagMember, tag) :: others))
    (named : (others.map Prod.fst).Sublist names) (distinct : (tagMember :: names).Nodup) :
    (members.map Prod.fst).Nodup := by
  obtain rfl := Json.object.inj (object.symm.trans tagged)
  exact (named.cons_cons tagMember).nodup distinct

/-! ## Places of tags -/

/-- Where the document of a condition has a tag: its operand, if that is a string. A counter is
kept in this way, and so is an affinity. -/
inductive Condition.Carries : Doc → List Step → String → Prop
  | operand {doc : Doc} {tag : String} (spells : doc.Spells Condition.shape.names "value" tag) :
    Carries doc [.member "value"] tag

/-- Where the document of a cost has a tag. -/
inductive Cost.Carries : Doc → List Step → String → Prop
  | counter {doc : Doc} {tag : String} (typed : doc.HasKind CostKind.removeCounter)
    (spells : doc.Spells (tagMember :: (Cost.shape .removeCounter).names) "counter" tag) :
    Carries doc [.member "counter"] tag

/-- The members, besides the target, that are tags in an effect of each kind. -/
def Effect.tagMembers : EffectKind → List String
  | .applyCounter | .removeCounter => ["counter"]
  | .attackModification => ["modification"]
  | .redirectDamage => ["to"]
  | _ => []

/-- Where the document of an effect has a tag: its target, its own members, its condition. -/
inductive Effect.Carries : Doc → List Step → String → Prop
  | target {doc : Doc} {kind : EffectKind} {tag : String} (typed : doc.HasKind kind)
    (spells : doc.Spells (tagMember :: (Effect.shape kind).names) "target" tag) :
    Carries doc [.member "target"] tag
  | own {doc : Doc} {kind : EffectKind} {name tag : String} (typed : doc.HasKind kind)
    (among : name ∈ tagMembers kind)
    (spells : doc.Spells (tagMember :: (Effect.shape kind).names) name tag) :
    Carries doc [.member name] tag
  | condition {doc inner : Doc} {kind : EffectKind} {path : List Step} {tag : String}
    (typed : doc.HasKind kind)
    (place : doc.member? (tagMember :: (Effect.shape kind).names) "condition" = some inner)
    (inside : Condition.Carries inner path tag) : Carries doc (.member "condition" :: path) tag

/-- Where the document of an ability has a tag: its trigger, its cost, its effects. -/
inductive Ability.Carries : Doc → List Step → String → Prop
  | trigger {doc : Doc} {tag : String} (spells : doc.Spells Ability.shape.names "trigger" tag) :
    Carries doc [.member "trigger"] tag
  | cost {doc inner : Doc} {path : List Step} {tag : String}
    (place : doc.member? Ability.shape.names "cost" = some inner)
    (inside : Cost.Carries inner path tag) : Carries doc (.member "cost" :: path) tag
  | effect {doc inner : Doc} {items : List Doc} {ending : ListEnd} {index : Nat}
    {path : List Step} {tag : String}
    (place : doc.member? Ability.shape.names "effects" = some (.array items ending))
    (listed : items[index]? = some inner) (inside : Effect.Carries inner path tag) :
    Carries doc (.member "effects" :: .item index :: path) tag

/-! ## Conditions -/

namespace Condition

theorem Carries.ne_null {doc : Doc} {path : List Step} {tag : String}
    (carries : Carries doc path tag) : doc ≠ .null := by
  rintro rfl
  obtain ⟨_, place, _⟩ := carries
  cases place

theorem finds_operand (source : Source) (find : String → Option Doc) :
    Condition.shape.Finds source find fun condition => ∀ doc, find "value" = some doc →
      doc ≠ .null → ∃ operand, Operand.read source doc = .ok operand ∧
        condition.operand = some operand :=
  .seq (.seq (.map ((Shape.Finds.any _).mono fun _ _ _ reads _ _ => reads))
    (.optional "value" Operand.read)) (.any _)

theorem distinct_members {condition : Condition} {members : List (String × Json)}
    (written : condition.toJson = .object members) : (members.map Prod.fst).Nodup := by
  rw [← Json.object.inj written]
  exact (@written_condition 0 condition).names.nodup (by decide)

theorem kept {source : Source} {doc : Doc} {condition : Condition} {path : List Step}
    {tag : String} (read : Condition.read source doc = .ok condition)
    (carries : Carries doc path tag) : condition.toJson.follow? path = some (.string tag) := by
  have gathered := Record.gather_of_read (by decide) read
  obtain ⟨quoted, place, spelled⟩ := carries
  obtain ⟨operand, inner, present⟩ := finds_operand _ _ _ gathered _ place nofun
  -- Whichever the string is taken for, it is written as it was.
  have same : operand.toJson = .string tag := by
    rw [Operand.read_string spelled] at inner
    cases inner
    exact Operand.toJson_resolve _
  have listed : ("value", Json.string tag) ∈
      Json.present "value" Operand.toJson condition.operand := by
    simp [Json.present, present, same]
  exact follow?_member (distinct_members rfl) (by simp [listed]) []

end Condition

/-! ## Costs -/

theorem Cost.finds_counter (source : Source) (find : String → Option Doc) :
    (Cost.shape .removeCounter).Finds source find fun cost => ∃ counter,
      cost.payment = .removeCounter counter ∧
        ∀ doc, find "counter" = some doc → Counter.read source doc = .ok counter :=
  .seq (.map ((Shape.Finds.required "counter" Counter.read).mono
    fun counter reads _ _ => ⟨counter, rfl, reads⟩)) (.any _)

theorem Cost.Carries.ne_null {doc : Doc} {path : List Step} {tag : String}
    (carries : Cost.Carries doc path tag) : doc ≠ .null := by
  rintro rfl
  obtain ⟨⟨_, place, _⟩, _⟩ := carries
  cases place

theorem Cost.distinct_members {cost : Cost} {members : List (String × Json)}
    (written : cost.toJson = .object members) : (members.map Prod.fst).Nodup := by
  obtain ⟨others, tagged, named⟩ := cost.toJson_members
  exact distinct_of_tagged written tagged named (Cost.nodup_names cost.kind)

theorem Cost.kept {source : Source} {doc : Doc} {cost : Cost} {path : List Step} {tag : String}
    (read : Cost.read source doc = .ok cost) (carries : Cost.Carries doc path tag) :
    cost.toJson.follow? path = some (.string tag) := by
  obtain ⟨kind, typed, gathered⟩ := gather_of_tagged Cost.nodup_names read
  obtain ⟨typed', quoted, place, spelled⟩ := carries
  obtain rfl := typed.unique typed'
  obtain ⟨counter, paid, reads⟩ := Cost.finds_counter _ _ _ gathered
  have listed : ("counter", Json.string tag) ∈ Cost.paymentMembers cost.payment := by
    simp [paid, Cost.paymentMembers, toJson_of_openTag (reads _ place) spelled]
  exact follow?_member (Cost.distinct_members rfl) (by simp [listed]) []

/-! ## Effects -/

namespace Effect

/-- Whether the tags at given places are among the members that are written for a deed. -/
def KeepsOwn (find : String → Option Doc) (deed : Deed) : Prop :=
  ∀ name ∈ tagMembers deed.kind, ∀ quoted tag, find name = some (.string quoted) →
    quoted.value = .ok tag → (name, Json.string tag) ∈ deedMembers deed

/-- What of the effects of all kinds comes from the documents at given places. -/
structure Found (source : Source) (find : String → Option Doc) (effect : Effect) : Prop where
  target : ∀ doc, find "target" = some doc → Target.read source doc = .ok effect.target
  condition : ∀ doc, find "condition" = some doc → doc ≠ .null →
    ∃ condition, Condition.read source doc = .ok condition ∧ effect.condition = some condition

variable {source : Source} {find : String → Option Doc}

theorem finds_standingShape (change : Shape Standing) :
    (standingShape change).Finds source find (Found source find) := by
  refine .seq (.seq (.seq (.map ?_) (.any _)) (.any _)) (.optional "condition" Condition.read)
  exact (Shape.Finds.required "target" Target.read).mono
    fun _ target _ _ _ _ _ condition => ⟨target, condition⟩

theorem finds_actShape (act : Shape Act) :
    (actShape act).Finds source find (Found source find) := by
  refine .seq (.seq (.seq (.map ?_) (.any _)) (.any _)) (.optional "condition" Condition.read)
  exact (Shape.Finds.required "target" Target.read).mono
    fun _ target _ _ _ _ _ condition => ⟨target, condition⟩

theorem finds_shape (kind : EffectKind) :
    (Effect.shape kind).Finds source find (Found source find) := by
  cases kind with
  | modifyStats | immunity | damageReduction => exact finds_standingShape _
  | _ => exact finds_actShape _

theorem actShape_keepsOwn {act : Shape Act}
    (finds : act.Finds source find fun act => ∀ duration, KeepsOwn find (.act act duration)) :
    (actShape act).Finds source find fun effect => KeepsOwn find effect.deed :=
  .seq (.seq (.seq (.map ((Shape.Finds.any _).mono fun _ _ _ own duration _ _ _ => own duration))
    finds) (.any _)) (.any _)

/-- A tag is kept that is the only one of its deed and comes first among the members written. -/
theorem keepsOwn_first {κ : Type} [Vocabulary κ] {type name : String} {deed : Deed}
    (only : tagMembers deed.kind = [name])
    (first : ∀ doc, find name = some doc → doc ≠ .null → ∃ value : OpenTag κ,
      openTag type source doc = .ok value ∧
        (deedMembers deed).head? = some (name, value.toJson)) : KeepsOwn find deed := by
  intro other among quoted tag place spelled
  rw [only, List.mem_singleton] at among
  subst among
  obtain ⟨value, read, written⟩ := first _ place nofun
  rw [toJson_of_openTag read spelled] at written
  exact List.mem_of_head? written

/-- The tags of a deed are kept: the four kinds that have one write it first. -/
theorem shape_keepsOwn (kind : EffectKind) :
    (Effect.shape kind).Finds source find fun effect => KeepsOwn find effect.deed := by
  have none (untagged : tagMembers kind = []) :
      (Effect.shape kind).Finds source find fun effect => KeepsOwn find effect.deed := by
    intro effect gathered name among
    have same : effect.deed.kind = kind := yields_kind kind _ (Shape.built_of_gather gathered)
    rw [same, untagged] at among
    cases among
  cases kind with
  | applyCounter =>
    refine actShape_keepsOwn (.seq (.map ?_) (.any _))
    exact (Shape.Finds.required "counter" Counter.read).mono fun counter reads _ _ _ =>
      keepsOwn_first rfl fun doc place _ => ⟨counter, reads doc place, rfl⟩
  | removeCounter =>
    refine actShape_keepsOwn (.seq (.map ?_) (.any _))
    refine (Shape.Finds.optional "counter" Counter.read).mono fun value reads count _ duration => ?_
    have first (doc : Doc) (place : find "counter" = some doc) (present : doc ≠ .null) :
        ∃ counter : Counter, Counter.read source doc = .ok counter ∧
          (deedMembers (.act (.removeCounter value count) duration)).head? =
            some ("counter", counter.toJson) := by
      obtain ⟨counter, read, rfl⟩ := reads doc place present
      exact ⟨counter, read, rfl⟩
    exact keepsOwn_first rfl first
  | attackModification =>
    refine actShape_keepsOwn (.map ?_)
    exact (Shape.Finds.required "modification" AttackModifier.read).mono fun modifier reads _ =>
      keepsOwn_first rfl fun doc place _ => ⟨modifier, reads doc place, rfl⟩
  | redirectDamage =>
    refine actShape_keepsOwn (.map ?_)
    exact (Shape.Finds.required "to" Target.read).mono fun recipient reads _ =>
      keepsOwn_first rfl fun doc place _ => ⟨recipient, reads doc place, rfl⟩
  | _ => exact none rfl

theorem distinct_members {effect : Effect} {members : List (String × Json)}
    (written : effect.toJson = .object members) : (members.map Prod.fst).Nodup := by
  obtain ⟨others, tagged, named⟩ := effect.toJson_members
  exact distinct_of_tagged written tagged named (Effect.nodup_names effect.kind)

theorem kept {source : Source} {doc : Doc} {effect : Effect} {path : List Step} {tag : String}
    (read : Effect.read source doc = .ok effect) (carries : Carries doc path tag) :
    effect.toJson.follow? path = some (.string tag) := by
  obtain ⟨kind, typed, gathered⟩ := gather_of_tagged Effect.nodup_names read
  have found := finds_shape kind effect gathered
  have same : effect.deed.kind = kind := yields_kind kind _ (Shape.built_of_gather gathered)
  cases carries with
  | target typed' spells =>
    obtain rfl := typed.unique typed'
    obtain ⟨quoted, place, spelled⟩ := spells
    have written := toJson_of_openTag (found.target _ place) spelled
    exact follow?_member (distinct_members rfl) (by simp [← written]) []
  | own typed' among spells =>
    obtain rfl := typed.unique typed'
    obtain ⟨quoted, place, spelled⟩ := spells
    have listed := shape_keepsOwn _ effect gathered _ (same ▸ among) quoted _ place spelled
    exact follow?_member (distinct_members rfl) (by simp [listed]) []
  | condition typed' place inside =>
    obtain rfl := typed.unique typed'
    obtain ⟨condition, inner, gated⟩ := found.condition _ place inside.ne_null
    have listed : ("condition", condition.toJson) ∈
        present "condition" Condition.toJson effect.condition := by
      simp [present, gated]
    exact (follow?_member (distinct_members rfl) (by simp [listed]) _).trans
      (Condition.kept inner inside)

end Effect

/-! ## Abilities -/

/-- A list is read item by item. -/
theorem getElem?_of_mapM {α : Type} {read : Doc → Except Fault α} {docs : List Doc}
    {values : List α} (done : docs.mapM read = .ok values) {index : Nat} {doc : Doc}
    (listed : docs[index]? = some doc) :
    ∃ value, read doc = .ok value ∧ values[index]? = some value := by
  induction docs generalizing values index with
  | nil => cases listed
  | cons first docs ih =>
    rw [List.mapM_cons] at done
    obtain ⟨value, head, done⟩ := bind_eq_ok done
    obtain ⟨others, rest, same⟩ := bind_eq_ok done
    cases same
    cases index with
    | zero =>
      cases listed
      exact ⟨value, head, rfl⟩
    | succ index => exact ih rest listed

theorem getElem?_of_list {α : Type} {read : Reader α} {source : Source} {items : List Doc}
    {ending : ListEnd} {values : List α}
    (done : list read source (.array items ending) = .ok values) {index : Nat} {doc : Doc}
    (listed : items[index]? = some doc) :
    ∃ value, read source doc = .ok value ∧ values[index]? = some value := by
  obtain ⟨others, each, done⟩ := bind_eq_ok done
  obtain ⟨_, _, same⟩ := bind_eq_ok done
  cases same
  exact getElem?_of_mapM each listed

namespace Ability

/-- What of an ability comes from the documents at given places. -/
structure Found (source : Source) (find : String → Option Doc) (ability : Ability) : Prop where
  trigger : ∀ doc, find "trigger" = some doc → doc ≠ .null →
    ∃ trigger, Trigger.read source doc = .ok trigger ∧ ability.trigger = some trigger
  cost : ∀ doc, find "cost" = some doc → doc ≠ .null →
    ∃ cost, Cost.read source doc = .ok cost ∧ ability.cost = some cost
  effects : ∀ doc, find "effects" = some doc → list Effect.read source doc = .ok ability.effects

theorem finds_shape (source : Source) (find : String → Option Doc) :
    Ability.shape.Finds source find (Found source find) := by
  refine .seq (.seq (.seq (.seq (.seq (.seq (.map ?_) (.any _))
    (.optional "trigger" Trigger.read)) (.optional "cost" Cost.read))
    (.defaulted "effects" (list Effect.read) [])) (.any _)) (.any _)
  exact (Shape.Finds.any _).mono fun _ _ _ _ _ trigger _ cost _ effects _ _ _ _ =>
    ⟨trigger, cost, effects⟩

theorem distinct_members {ability : Ability} {members : List (String × Json)}
    (written : ability.toJson = .object members) : (members.map Prod.fst).Nodup := by
  rw [← Json.object.inj written]
  exact (@written_ability 0 ability).names.nodup (by decide)

theorem kept {source : Source} {doc : Doc} {ability : Ability} {path : List Step} {tag : String}
    (read : Ability.read source doc = .ok ability) (carries : Carries doc path tag) :
    ability.toJson.follow? path = some (.string tag) := by
  have gathered := Record.gather_of_read (by decide) read
  have found := finds_shape _ _ ability gathered
  cases carries with
  | trigger spells =>
    obtain ⟨quoted, place, spelled⟩ := spells
    obtain ⟨trigger, inner, present⟩ := found.trigger _ place nofun
    have listed : ("trigger", Json.string tag) ∈
        Json.present "trigger" OpenTag.toJson ability.trigger := by
      simp [Json.present, present, toJson_of_openTag inner spelled]
    exact follow?_member (distinct_members rfl) (by simp [listed]) []
  | cost place inside =>
    obtain ⟨cost, inner, present⟩ := found.cost _ place inside.ne_null
    have listed : ("cost", cost.toJson) ∈ Json.present "cost" Cost.toJson ability.cost := by
      simp [Json.present, present]
    exact (follow?_member (distinct_members rfl) (by simp [listed]) _).trans
      (Cost.kept inner inside)
  | effect place listed inside =>
    obtain ⟨effect, inner, present⟩ := getElem?_of_list (found.effects _ place) listed
    have written (path : List Step) : ability.toJson.follow? (.member "effects" :: path) =
        follow? path (.array (ability.effects.map Effect.toJson)) :=
      follow?_member (distinct_members rfl) (by simp) path
    rw [written, follow?, List.getElem?_map, present]
    exact Effect.kept inner inside

end Ability

/-! ## Depth -/

theorem Condition.Carries.limitDepth {doc : Doc} {path : List Step} {tag : String}
    (carries : Condition.Carries doc path tag) (room : Nat) :
    Condition.Carries (doc.limitDepth (room + 1)) path tag := by
  cases carries with
  | operand spells => exact .operand (spells.limitDepth room)

theorem Cost.Carries.limitDepth {doc : Doc} {path : List Step} {tag : String}
    (carries : Cost.Carries doc path tag) (room : Nat) :
    Cost.Carries (doc.limitDepth (room + 1)) path tag := by
  cases carries with
  | counter typed spells => exact .counter (typed.limitDepth room) (spells.limitDepth room)

theorem Effect.Carries.limitDepth {doc : Doc} {path : List Step} {tag : String}
    (carries : Effect.Carries doc path tag) (room : Nat) :
    Effect.Carries (doc.limitDepth (room + 2)) path tag := by
  cases carries with
  | target typed spells => exact .target (typed.limitDepth _) (spells.limitDepth _)
  | own typed among spells => exact .own (typed.limitDepth _) among (spells.limitDepth _)
  | condition typed place inside =>
    refine .condition (typed.limitDepth _) ?_ (inside.limitDepth room)
    rw [Doc.member?_limitDepth, place, Option.map_some]

theorem Ability.Carries.limitDepth {doc : Doc} {path : List Step} {tag : String}
    (carries : Ability.Carries doc path tag) (room : Nat) :
    Ability.Carries (doc.limitDepth (room + 4)) path tag := by
  cases carries with
  | trigger spells => exact .trigger (spells.limitDepth _)
  | cost place inside =>
    refine .cost ?_ (inside.limitDepth (room + 2))
    rw [Doc.member?_limitDepth, place, Option.map_some]
  | @effect inner items ending index path tag place listed inside =>
    have limited : (doc.limitDepth (room + 4)).member? Ability.shape.names "effects" =
        some (.array (Doc.limitItems (room + 2) items) ending) := by
      rw [Doc.member?_limitDepth, place]
      rfl
    refine .effect limited ?_ (inside.limitDepth room)
    rw [Doc.limitItems_eq_map, List.getElem?_map, listed, Option.map_some]

/-! ## All readers -/

/-- Whether a reader keeps the tags inside its values: wherever a text has one, what is written for
the value that is read has the same string. -/
def KeepsInside {α : Type} (read : Reader α) (write : α → Json)
    (Carries : Doc → List Step → String → Prop) : Prop :=
  ∀ doc text value, Doc.IsText doc text → read.ofText text = .ok value →
    ∀ path tag, Carries doc path tag → (write value).follow? path = some (.string tag)

theorem keepsInside {α : Type} {read : Reader α} {write : α → Json}
    {Carries : Doc → List Step → String → Prop}
    (limited : ∀ {doc path tag}, Carries doc path tag →
      Carries (doc.limitDepth Doc.maxDepth) path tag)
    (kept : ∀ {doc value path tag}, read .text doc = .ok value → Carries doc path tag →
      (write value).follow? path = some (.string tag)) : KeepsInside read write Carries := by
  intro doc text value isText done path tag carries
  rw [isText.ofText] at done
  exact kept done (limited carries)

/-- Triggers, targets, changes to attacks and counters keep every string, and are unknown exactly if
it is none of their spellings; a counter that is unknown is called by its tag. The same holds inside
abilities, effects, costs and conditions, by name and by position. -/
theorem tags_kept :
    KeepsTags Trigger.read ["Passive", "Activated", "OnSummon", "OnAttack", "OnDamage",
      "OnDealDamage", "OnDeath", "OnHeal", "OnTurnStart", "OnTurnEnd", "OnAllySummon",
      "OnAllyDeath", "OnEnemySummon", "OnSpellCast"] ∧
    KeepsTags Target.read ["self", "target", "target-ally", "target-enemy", "attacker",
      "all-allies", "all-enemies", "adjacent-allies", "adjacent-enemies", "other-allies",
      "random-ally", "random-enemy", "all-units", "player-gardener", "opponent-gardener"] ∧
    KeepsTags AttackModifier.read ["double-damage", "triple-damage", "instant-destroy",
      "attack-twice", "attack-first", "cannot-counterattack", "piercing", "cannot-attack",
      "attack-all-enemies", "lifesteal"] ∧
    KeepsTags Counter.read ["burn", "spore", "freeze", "soot", "poison", "shield"] ∧
    (∀ counter : Counter, (∃ raw, counter = .unknown raw) →
      counter.displayName = counter.spelling) ∧
    KeepsInside Ability.read Ability.toJson Ability.Carries ∧
    KeepsInside Effect.read Effect.toJson Effect.Carries ∧
    KeepsInside Cost.read Cost.toJson Cost.Carries ∧
    KeepsInside Condition.read Condition.toJson Condition.Carries := by
  refine ⟨keepsTags_openTag _, keepsTags_openTag _, keepsTags_openTag _, keepsTags_openTag _, ?_,
    keepsInside (·.limitDepth 123) Ability.kept, keepsInside (·.limitDepth 125) Effect.kept,
    keepsInside (·.limitDepth 126) Cost.kept, keepsInside (·.limitDepth 126) Condition.kept⟩
  rintro counter ⟨raw, rfl⟩
  rfl

/-- Tags that no vocabulary knows, by name and by position, one of them empty and one with what has
to be escaped. -/
theorem bramble_kept :
    let text := "\x7b\"trigger\":\"on\\nSprout\",\"name\":\"bramble\"," ++
      "\"cost\":[\"remove-counter\",\"Thorn\"],\"effects\":[\x7b\"target\":\"Self\",\"to\":\"\"," ++
      "\"condition\":[\"has-counter\",\"\\\"dew\\\"\"],\"type\":\"redirect-damage\"\x7d]\x7d"
    let bramble : Ability :=
      { name := "bramble", trigger := some (.unknown "on\nSprout"),
        cost := some { payment := .removeCounter (.unknown "Thorn") },
        effects := [(Effect.once (.unknown "Self") (.redirectDamage (.unknown ""))).gatedBy
          (.hasCounter (.unknown "\"dew\""))] }
    (∃ value, value.toJson = .string "on\nSprout" ∧ (∃ raw, value = .unknown raw) ∧
      Trigger.read.ofText value.toJson.compact = .ok value) ∧
    Ability.read.ofText text = .ok bramble ∧
    bramble.toJson.follow? [.member "trigger"] = some (.string "on\nSprout") ∧
    bramble.toJson.follow? [.member "cost", .member "counter"] = some (.string "Thorn") ∧
    bramble.toJson.follow? [.member "effects", .item 0, .member "to"] = some (.string "") ∧
    bramble.toJson.follow? [.member "effects", .item 0, .member "condition", .member "value"] =
      some (.string "\"dew\"") := by
  intro text bramble
  let json : Json := .object [("trigger", .string "on\nSprout"), ("name", .string "bramble"),
    ("cost", .array [.string "remove-counter", .string "Thorn"]),
    ("effects", .array [.object [("target", .string "Self"), ("to", .string ""),
      ("condition", .array [.string "has-counter", .string "\"dew\""]),
      ("type", .string "redirect-damage")]])]
  have strings (room : Nat) (texts : List String) :
      Fits (room + 1) (.array (texts.map Json.string)) := by
    refine .array fun item listed => ?_
    obtain ⟨text, _, rfl⟩ := List.mem_map.1 listed
    exact .string text
  have fits : Fits 4 json := by
    refine .object ?_
    simp only [List.forall_mem_cons]
    refine ⟨.string _, .string _, strings 2 ["remove-counter", "Thorn"], .array ?_, nofun⟩
    refine List.forall_mem_singleton.2 (.object ?_)
    simp only [List.forall_mem_cons]
    exact ⟨.string _, .string _, strings 0 ["has-counter", "\"dew\""], .string _, nofun⟩
  have printed : json.compact = text := by decide +kernel
  have isText : Doc.IsText json.toDoc text := printed ▸ fits.isText_compact
  have done : Ability.read.ofText text = .ok bramble := eq_ok_of_toOption (by decide +kernel)
  obtain ⟨triggers, _, _, _, _, abilities, _⟩ := tags_kept
  have inside := abilities _ text bramble isText done
  have typed {doc : Doc}
      (tag : doc.member? [tagMember] tagMember = some (.string (.ofText "redirect-damage"))) :
      doc.HasKind EffectKind.redirectDamage := ⟨_, tag, Quoted.value_ofText _⟩
  refine ⟨?_, done, inside _ _ ?_, inside _ _ ?_, inside _ _ ?_, inside _ _ ?_⟩
  · obtain ⟨value, _, written, unknown, read, _⟩ := triggers "on\nSprout"
    exact ⟨value, written, unknown.2 (by decide), read⟩
  · exact .trigger ⟨_, rfl, Quoted.value_ofText _⟩
  · exact .cost rfl (.counter ⟨_, rfl, Quoted.value_ofText _⟩ ⟨_, rfl, Quoted.value_ofText _⟩)
  · exact .effect rfl rfl (.own (typed rfl) (List.mem_singleton_self _)
      ⟨_, rfl, Quoted.value_ofText _⟩)
  · exact .effect rfl rfl (.condition (typed rfl) rfl (.operand ⟨_, rfl, Quoted.value_ofText _⟩))

end RulesText
