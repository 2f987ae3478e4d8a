import RulesText.Proofs.NumericMembers

/-!
# Numbers are kept as they are

Every number of an ability, an effect, a cost or a condition has a range. Wherever one of them has
the member of a number, by name or by position, and whatever stands around it, a numeral there is
read exactly if it is an integer of that range, as that integer, and the value that is read is
written with that integer again. Nothing is wrapped, cut off or rounded, and where a member has
several readings no other one takes the numeral.
-/

namespace RulesText
open Format Json

/-! ## Amounts and operands -/

/-- A count as an integer. -/
def countOf (count : UInt32) : Option Int := some count.toNat

theorem countOf_written {count : UInt32} {n : Int} (number : countOf count = some n) :
    Json.ofUInt32 count = .number (.int n) :=
  congrArg _ (congrArg _ (Option.some.inj number))

/-- The number that an amount is fixed to. -/
def AmountForm.number? : AmountForm → Option Int
  | .number value => some value.toNat
  | .keyword _ | .computed _ => none

/-- The number that an operand is. -/
def Operand.integer? : Operand → Option Int
  | .number value => some value.toInt
  | .affinity _ | .counter _ => none

theorem AmountForm.written {form : AmountForm} {n : Int} (number : form.number? = some n) :
    form.toJson = .number (.int n) := by
  cases form with
  | number value => exact countOf_written number
  | keyword | computed => cases number

/-- A numeral is an amount by its number only, so none is taken for a keyword or a formula. -/
theorem AmountForm.counts {α : Type} {read : Reader α} {form : α → AmountForm}
    (means : read.Means fun doc amount => MeantBy doc (form amount))
    (fixed : ∀ value, ∃ amount, form amount = .number value) :
    read.Counts .unsigned fun amount => (form amount).number? := by
  refine ⟨fun {source numeral n} integer holds => ?_, fun {source numeral amount} done => ?_⟩
  · obtain ⟨value, read⟩ : ∃ value, uint32 source (.number numeral) = .ok value :=
      counts_uint32.reads integer holds
    obtain ⟨amount, same⟩ := fixed value
    refine ⟨amount, (means.documents _ _ _).2 ⟨holds.check integer, ?_⟩⟩
    rw [same]
    exact .number (uint32_number_iff.1 read)
  · obtain ⟨_, meant⟩ := (means.documents _ _ _).1 done
    generalize form amount = written at meant ⊢
    cases meant with
    | @number _ value integer =>
      have read : uint32 source (.number numeral) = .ok value := uint32_number_iff.2 integer
      exact counts_uint32.only read

theorem counts_damage : DamageAmount.read.Counts .unsigned fun amount => amount.form.number? :=
  AmountForm.counts means_damage fun value => ⟨.fixed value, rfl⟩

theorem counts_heal : HealAmount.read.Counts .unsigned fun amount => amount.form.number? :=
  AmountForm.counts means_heal fun value => ⟨.fixed value, rfl⟩

/-- Nor is a numeral taken for an affinity or a counter. -/
theorem counts_operand : Operand.read.Counts .signed Operand.integer? := by
  refine ⟨fun {source numeral n} integer holds => ?_, fun {source numeral operand} done => ?_⟩
  · obtain ⟨value, read⟩ : ∃ value, int32 source (.number numeral) = .ok value :=
      counts_int32.reads integer holds
    exact ⟨.number value, (Operand.means.documents _ _ _).2
      ⟨holds.check integer, .number (int32_number_iff.1 read)⟩⟩
  · obtain ⟨_, meant⟩ := (Operand.means.documents _ _ _).1 done
    cases meant with
    | @number _ value integer =>
      have read : int32 source (.number numeral) = .ok value := int32_number_iff.2 integer
      exact counts_int32.only read
    | affinity denotes => cases denotes

/-! ## Places of numbers -/

/-- A number of a value: where it is written, its range, and the number itself, if the value has
it. -/
structure Gauge (α : Type) where
  path : List Step
  extent : Extent
  stored : α → Option Int

/-- Whether a value has a number and is written with it. -/
def Gauge.Shows {α : Type} (gauge : Gauge α) (write : α → Json) (value : α) (n : Int) : Prop :=
  gauge.stored value = some n ∧ (write value).follow? gauge.path = some (.number (.int n))

namespace Effect

/-- The number of a standing change. -/
def standingNumber? : Standing → Option Int
  | .modifyStats _ change => some change.toInt
  | .damageReduction amount => countOf amount
  | .immunity _ => none

/-- The number of an act. -/
def actNumber? : Act → Option Int
  | .dealDamage amount _ => amount.form.number?
  | .heal amount => amount.form.number?
  | .drawCards count | .applyCounter _ count | .gainResource _ count | .temporaryHealth count
  | .retaliation count | .discard count _ | .summonToken _ count => countOf count
  | .removeCounter _ count | .cannotBeTargeted _ count | .preventDamage count
  | .searchDeck count _ _ => count.bind countOf
  | .attackModification _ | .move _ | .destroy | .swap _ | .returnToHand | .copyAbility | .nullify
  | .redirectDamage _ | .removeSummoningSickness => none

/-- The number of a deed. -/
def deedNumber? : Deed → Option Int
  | .standing change _ => standingNumber? change
  | .act what _ => actNumber? what

/-- The member that holds the number of an effect of each kind, and its range. -/
def measure? : EffectKind → Option (String × Extent)
  | .modifyStats => some ("value", .signed)
  | .cannotBeTargeted => some ("costThreshold", .unsigned)
  | .dealDamage | .heal | .drawCards | .applyCounter | .removeCounter | .gainResource
  | .preventDamage | .searchDeck | .temporaryHealth | .damageReduction | .retaliation | .discard
  | .summonToken => some ("value", .unsigned)
  | .immunity | .attackModification | .move | .destroy | .swap | .returnToHand | .copyAbility
  | .nullify | .redirectDamage | .removeSummoningSickness => none

end Effect

/-- The documents around the number of a condition: its operand. -/
inductive Condition.Measures : (Doc → Doc) → Gauge Condition → Prop
  | operand {fill : Doc → Doc} (around : Doc.Around Condition.shape.names "value" fill) :
    Measures fill
      ⟨[.member "value"], .signed, fun condition => condition.operand.bind Operand.integer?⟩

/-- The documents around the number of a cost. -/
inductive Cost.Measures : (Doc → Doc) → Gauge Cost → Prop
  | value {kind : CostKind} {fill : Doc → Doc} (typed : ∀ inner, (fill inner).HasKind kind)
    (around : Doc.Around (tagMember :: (Cost.shape kind).names) "value" fill) :
    Measures fill ⟨[.member "value"], .unsigned, fun cost => cost.value.bind countOf⟩

/-- The documents around a number of an effect: its own, or that of its condition. -/
inductive Effect.Measures : (Doc → Doc) → Gauge Effect → Prop
  | own {kind : EffectKind} {name : String} {extent : Extent} {fill : Doc → Doc}
    (measured : measure? kind = some (name, extent)) (typed : ∀ inner, (fill inner).HasKind kind)
    (around : Doc.Around (tagMember :: (Effect.shape kind).names) name fill) :
    Measures fill ⟨[.member name], extent, fun effect => deedNumber? effect.deed⟩
  | condition {kind : EffectKind} {outer fill : Doc → Doc} {gauge : Gauge Condition}
    (typed : ∀ inner, (outer inner).HasKind kind)
    (around : Doc.Around (tagMember :: (Effect.shape kind).names) "condition" outer)
    (inside : Condition.Measures fill gauge) :
    Measures (fun inner => outer (fill inner)) ⟨.member "condition" :: gauge.path, gauge.extent,
      fun effect => effect.condition.bind gauge.stored⟩

/-- The documents around a number of an ability: its two limits of use, or those of its cost and its
effects. -/
inductive Ability.Measures : (Doc → Doc) → Gauge Ability → Prop
  | perTurn {fill : Doc → Doc} (around : Doc.Around Ability.shape.names "maxUsesPerTurn" fill) :
    Measures fill
      ⟨[.member "maxUsesPerTurn"], .unsigned, fun ability => ability.perTurn.bind countOf⟩
  | perGame {fill : Doc → Doc} (around : Doc.Around Ability.shape.names "maxUsesPerGame" fill) :
    Measures fill
      ⟨[.member "maxUsesPerGame"], .unsigned, fun ability => ability.perGame.bind countOf⟩
  | cost {outer fill : Doc → Doc} {gauge : Gauge Cost}
    (around : Doc.Around Ability.shape.names "cost" outer) (inside : Cost.Measures fill gauge) :
    Measures (fun inner => outer (fill inner)) ⟨.member "cost" :: gauge.path, gauge.extent,
      fun ability => ability.cost.bind gauge.stored⟩
  | effect {outer fill : Doc → Doc} {gauge : Gauge Effect}
    (around : Doc.Around Ability.shape.names "effects" outer) (before after : List Doc)
    (ending : ListEnd) (inside : Effect.Measures fill gauge) :
    Measures (fun inner => outer (.array (before ++ fill inner :: after) ending))
      ⟨.member "effects" :: .item before.length :: gauge.path, gauge.extent,
        fun ability => ability.effects[before.length]?.bind gauge.stored⟩

/-! ## Conditions -/

namespace Condition

theorem keeps_operand : Condition.shape.Keeps ⟨"value", nullable Operand.read, some none⟩
    fun condition operand => condition.operand = operand := by
  refine .seq_left (.seq_right (.own fun _ => rfl) (.map ?_)) _
  exact (Shape.Yields.any _).mono fun _ _ _ _ same _ => same

theorem Measures.around {fill : Doc → Doc} {gauge : Gauge Condition}
    (measures : Measures fill gauge) : Doc.Around Condition.shape.names "value" fill := by
  cases measures with
  | operand around => exact around

theorem Measures.exact {source : Source} {fill : Doc → Doc} {gauge : Gauge Condition}
    (measures : Measures fill gauge) :
    Exact (Condition.read source) fill gauge.extent (gauge.Shows Condition.toJson) := by
  cases measures with
  | operand around =>
    refine Exact.record keeps_operand (by decide) around counts_operand.nullable.exact ?_
    rintro condition operand n rfl shown
    obtain ⟨operand, present, number⟩ := Option.bind_eq_some_iff.1 shown
    have written : operand.toJson = .number (.int n) := by
      cases operand with
      | number value => exact congrArg _ (congrArg _ (Option.some.inj number))
      | affinity | counter => cases number
    have listed : ("value", Json.number (.int n)) ∈
        Json.present "value" Operand.toJson condition.operand := by
      simp [Json.present, present, written]
    exact ⟨shown, follow?_member (distinct_members rfl) (by simp [listed]) []⟩

end Condition

/-! ## Costs -/

/-- A count that may be left out is written if there is one. -/
theorem present_written {name : String} {count : Option UInt32} {n : Int}
    (number : count.bind countOf = some n) :
    (name, Json.number (.int n)) ∈ Json.present name .ofUInt32 count := by
  obtain ⟨value, rfl, number⟩ := Option.bind_eq_some_iff.1 number
  simp [Json.present, countOf_written number]

namespace Cost

theorem keeps_value (kind : CostKind) : (Cost.shape kind).Keeps
    ⟨"value", nullable uint32, some none⟩ fun cost value => cost.value = value := by
  cases kind with
  | nectar | discard | sacrifice => exact .map (.own fun _ => rfl)
  | removeCounter =>
    refine .seq_right (.own fun _ => rfl) (.map ?_)
    exact (Shape.Yields.any _).mono fun _ _ _ _ same => same

theorem Measures.around {fill : Doc → Doc} {gauge : Gauge Cost} (measures : Measures fill gauge) :
    ∃ kind : CostKind, Doc.Around (tagMember :: (Cost.shape kind).names) "value" fill := by
  cases measures with
  | value _ around => exact ⟨_, around⟩

theorem Measures.exact {source : Source} {fill : Doc → Doc} {gauge : Gauge Cost}
    (measures : Measures fill gauge) :
    Exact (Cost.read source) fill gauge.extent (gauge.Shows Cost.toJson) := by
  cases measures with
  | @value kind _ typed around =>
    refine Exact.tagged (keeps_value kind) Cost.nodup_names around typed (fun _ checked => checked)
      counts_uint32.nullable.exact ?_
    rintro cost value n rfl shown
    have listed : ("value", Json.number (.int n)) ∈ Json.present "value" .ofUInt32 cost.value :=
      present_written shown
    exact ⟨shown, follow?_member (distinct_members rfl) (by simp [listed]) []⟩

end Cost

/-! ## Effects -/

namespace Effect

theorem actShape_keeps {β : Type} {field : Format.Field β} {shown : β → Option Int}
    {act : Shape Act} (keeps : act.Keeps field fun act b => actNumber? act = shown b) :
    (actShape act).Keeps field fun effect b => deedNumber? effect.deed = shown b := by
  refine .seq_left (.seq_left (.seq_right keeps (.map ?_)) _) _
  exact (Shape.Yields.any _).mono fun _ _ _ _ same _ _ => same

theorem standingShape_keeps {β : Type} {field : Format.Field β} {shown : β → Option Int}
    {change : Shape Standing} (keeps : change.Keeps field fun change b =>
      standingNumber? change = shown b) :
    (standingShape change).Keeps field fun effect b => deedNumber? effect.deed = shown b := by
  refine .seq_left (.seq_left (.seq_right keeps (.map ?_)) _) _
  exact (Shape.Yields.any _).mono fun _ _ _ _ same _ _ => same

/-- The member of a measure is read as a number in its range, which is the number of the effect. -/
theorem keeps_measure {kind : EffectKind} {name : String} {extent : Extent}
    (measured : measure? kind = some (name, extent)) :
    ∃ (β : Type) (field : Format.Field β) (shown : β → Option Int), field.name = name ∧
      field.read.Counts extent shown ∧
      (Effect.shape kind).Keeps field fun effect b => deedNumber? effect.deed = shown b := by
  cases kind <;> cases measured
  case modifyStats =>
    refine ⟨_, ⟨"value", int32, none⟩, _, rfl, counts_int32, standingShape_keeps ?_⟩
    refine .seq_right (.own fun _ => rfl) (.map ?_)
    exact (Shape.Yields.any _).mono fun _ _ _ _ same => same ▸ rfl
  case damageReduction =>
    exact ⟨_, ⟨"value", uint32, none⟩, _, rfl, counts_uint32,
      standingShape_keeps (.map (.own fun _ => rfl))⟩
  case dealDamage =>
    refine ⟨_, ⟨"value", DamageAmount.read, none⟩, _, rfl, counts_damage, actShape_keeps ?_⟩
    refine .seq_left (.map ?_) _
    exact .own fun _ _ => rfl
  case heal =>
    exact ⟨_, ⟨"value", HealAmount.read, none⟩, _, rfl, counts_heal,
      actShape_keeps (.map (.own fun _ => rfl))⟩
  case drawCards | temporaryHealth | retaliation =>
    exact ⟨_, ⟨"value", uint32, none⟩, _, rfl, counts_uint32,
      actShape_keeps (.map (.own fun _ => rfl))⟩
  case discard =>
    refine ⟨_, ⟨"value", uint32, none⟩, _, rfl, counts_uint32, actShape_keeps ?_⟩
    refine .seq_left (.map ?_) _
    exact .own fun _ _ => rfl
  case applyCounter | gainResource | summonToken =>
    refine ⟨_, ⟨"value", uint32, none⟩, _, rfl, counts_uint32, actShape_keeps ?_⟩
    refine .seq_right (.own fun _ => rfl) (.map ?_)
    exact (Shape.Yields.any _).mono fun _ _ _ _ same => same ▸ rfl
  case removeCounter | cannotBeTargeted =>
    refine ⟨_, ⟨_, nullable uint32, some none⟩, _, rfl, counts_uint32.nullable, actShape_keeps ?_⟩
    refine .seq_right (.own fun _ => rfl) (.map ?_)
    exact (Shape.Yields.any _).mono fun _ _ _ _ same => same ▸ rfl
  case preventDamage =>
    exact ⟨_, ⟨"value", nullable uint32, some none⟩, _, rfl, counts_uint32.nullable,
      actShape_keeps (.map (.own fun _ => rfl))⟩
  case searchDeck =>
    refine ⟨_, ⟨"value", nullable uint32, some none⟩, _, rfl, counts_uint32.nullable,
      actShape_keeps ?_⟩
    exact .seq_left (.seq_left (.map (.own fun _ _ _ => rfl)) _) _

/-- The number of a deed is among the members that are written for it. -/
theorem number_written {deed : Deed} {name : String} {extent : Extent}
    (measured : measure? deed.kind = some (name, extent)) {n : Int}
    (number : deedNumber? deed = some n) : (name, Json.number (.int n)) ∈ deedMembers deed := by
  cases deed with
  | standing change _ =>
    cases change with
    | modifyStats | damageReduction =>
      cases measured
      cases number
      simp [deedMembers, standingMembers, Json.ofInt32, Json.ofUInt32]
    | immunity => cases measured
  | act what _ =>
    cases what with
    | dealDamage | heal =>
      cases measured
      have written := AmountForm.written number
      simp [deedMembers, actMembers, DamageAmount.toJson, HealAmount.toJson, written]
    | drawCards | applyCounter | gainResource | temporaryHealth | retaliation | discard
    | summonToken =>
      cases measured
      simp [deedMembers, actMembers, countOf_written number]
    | removeCounter | cannotBeTargeted | preventDamage | searchDeck =>
      cases measured
      simp [deedMembers, actMembers, present_written number]
    | attackModification | move | destroy | swap | returnToHand | copyAbility | nullify
    | redirectDamage | removeSummoningSickness => cases measured

theorem keeps_condition (kind : EffectKind) : (Effect.shape kind).Keeps
    ⟨"condition", nullable Condition.read, some none⟩
    fun effect condition => effect.condition = condition := by
  obtain ⟨ungated, ends, builds⟩ := shape_endsGated kind
  rw [ends]
  refine .seq_right (.own fun _ => rfl) (builds.mono fun build same condition _ eq => ?_)
  rw [same condition]
  exact eq

theorem Measures.exact {source : Source} {fill : Doc → Doc} {gauge : Gauge Effect}
    (measures : Measures fill gauge) :
    Exact (Effect.read source) fill gauge.extent (gauge.Shows Effect.toJson) := by
  cases measures with
  | @own kind name extent _ measured typed around =>
    obtain ⟨β, field, shown, rfl, counts, keeps⟩ := keeps_measure measured
    refine Exact.tagged (keeps.yields (yields_kind kind)) Effect.nodup_names around typed
      (fun _ checked => checked) counts.exact ?_
    rintro effect b n ⟨same, number⟩ shown
    rw [shown] at number
    have listed := number_written (same ▸ measured) number
    exact ⟨number, follow?_member (distinct_members rfl) (by simp [listed]) []⟩
  | @condition kind outer fill gauge typed around inside =>
    refine Exact.tagged (keeps_condition kind) Effect.nodup_names around typed inside.around.check
      (.nullable inside.around inside.exact) ?_
    rintro effect _ n rfl ⟨condition, present, number, written⟩
    refine ⟨Option.bind_eq_some_iff.2 ⟨condition, present, number⟩, ?_⟩
    have listed : ("condition", condition.toJson) ∈
        Json.present "condition" Condition.toJson effect.condition := by
      simp [Json.present, present]
    exact (follow?_member (distinct_members rfl) (by simp [listed]) _).trans written

end Effect

/-! ## Abilities -/

namespace Ability

theorem keeps_perGame : Ability.shape.Keeps ⟨"maxUsesPerGame", nullable uint32, some none⟩
    fun ability uses => ability.perGame = uses := by
  refine .seq_right (.own fun _ => rfl)
    (.seq (.seq (.seq (.seq (.seq (.map ?_) (.any _)) (.any _)) (.any _)) (.any _)) (.any _))
  exact (Shape.Yields.any _).mono fun _ _ _ _ _ _ _ _ _ _ _ _ _ _ same => same

theorem keeps_perTurn : Ability.shape.Keeps ⟨"maxUsesPerTurn", nullable uint32, some none⟩
    fun ability uses => ability.perTurn = uses := by
  refine .seq_left (.seq_right (.own fun _ => rfl)
    (.seq (.seq (.seq (.seq (.map ?_) (.any _)) (.any _)) (.any _)) (.any _))) _
  exact (Shape.Yields.any _).mono fun _ _ _ _ _ _ _ _ _ _ _ _ same _ => same

theorem keeps_effects : Ability.shape.Keeps ⟨"effects", list Effect.read, some []⟩
    fun ability effects => ability.effects = effects := by
  refine .seq_left (.seq_left (.seq_right (.own fun _ => rfl)
    (.seq (.seq (.seq (.map ?_) (.any _)) (.any _)) (.any _))) _) _
  exact (Shape.Yields.any _).mono fun _ _ _ _ _ _ _ _ _ _ same _ _ => same

theorem keeps_cost : Ability.shape.Keeps ⟨"cost", nullable Cost.read, some none⟩
    fun ability cost => ability.cost = cost := by
  refine .seq_left (.seq_left (.seq_left (.seq_right (.own fun _ => rfl)
    (.seq (.seq (.map ?_) (.any _)) (.any _))) _) _) _
  exact (Shape.Yields.any _).mono fun _ _ _ _ _ _ _ _ same _ _ _ => same

theorem Measures.exact {source : Source} {fill : Doc → Doc} {gauge : Gauge Ability}
    (measures : Measures fill gauge) :
    Exact (Ability.read source) fill gauge.extent (gauge.Shows Ability.toJson) := by
  cases measures with
  | perTurn around =>
    refine Exact.record keeps_perTurn (by decide) around counts_uint32.nullable.exact ?_
    rintro ability uses n rfl shown
    have listed : ("maxUsesPerTurn", Json.number (.int n)) ∈
        Json.present "maxUsesPerTurn" .ofUInt32 ability.perTurn := present_written shown
    exact ⟨shown, follow?_member (distinct_members rfl) (by simp [listed]) []⟩
  | perGame around =>
    refine Exact.record keeps_perGame (by decide) around counts_uint32.nullable.exact ?_
    rintro ability uses n rfl shown
    have listed : ("maxUsesPerGame", Json.number (.int n)) ∈
        Json.present "maxUsesPerGame" .ofUInt32 ability.perGame := present_written shown
    exact ⟨shown, follow?_member (distinct_members rfl) (by simp [listed]) []⟩
  | @cost outer fill gauge around inside =>
    obtain ⟨_, within⟩ := inside.around
    refine Exact.record keeps_cost (by decide) around (.nullable within inside.exact) ?_
    rintro ability _ n rfl ⟨cost, present, number, written⟩
    refine ⟨Option.bind_eq_some_iff.2 ⟨cost, present, number⟩, ?_⟩
    have listed : ("cost", cost.toJson) ∈ Json.present "cost" Cost.toJson ability.cost := by
      simp [Json.present, present]
    exact (follow?_member (distinct_members rfl) (by simp [listed]) _).trans written
  | @effect outer fill gauge around before after ending inside =>
    refine Exact.record keeps_effects (by decide) around
      (.list before after ending inside.exact) ?_
    rintro ability _ n rfl ⟨effect, present, number, written⟩
    refine ⟨Option.bind_eq_some_iff.2 ⟨effect, present, number⟩, ?_⟩
    have items (path : List Step) : ability.toJson.follow? (.member "effects" :: path) =
        follow? path (.array (ability.effects.map Effect.toJson)) :=
      follow?_member (distinct_members rfl) (by simp) path
    rw [items, follow?, List.getElem?_map, present]
    exact written

end Ability

/-! ## Depth and texts -/

theorem Condition.Measures.limitDepth {fill : Doc → Doc} {gauge : Gauge Condition}
    (measures : Measures fill gauge) (room : Nat) : ∃ fill' room', Measures fill' gauge ∧
      ∀ inner, (fill inner).limitDepth (room + 1) = fill' (inner.limitDepth room') := by
  cases measures with
  | operand around =>
    obtain ⟨fill', around', same⟩ := around.limitDepth room
    exact ⟨fill', room, .operand around', same⟩

theorem Cost.Measures.limitDepth {fill : Doc → Doc} {gauge : Gauge Cost}
    (measures : Measures fill gauge) (room : Nat) : ∃ fill' room', Measures fill' gauge ∧
      ∀ inner, (fill inner).limitDepth (room + 1) = fill' (inner.limitDepth room') := by
  cases measures with
  | value typed around =>
    obtain ⟨fill', typed', around', same⟩ := tagged_limitDepth typed around (by decide) room
    exact ⟨fill', room, .value typed' around', same⟩

theorem Effect.Measures.limitDepth {fill : Doc → Doc} {gauge : Gauge Effect}
    (measures : Measures fill gauge) (room : Nat) : ∃ fill' room', Measures fill' gauge ∧
      ∀ inner, (fill inner).limitDepth (room + 2) = fill' (inner.limitDepth room') := by
  cases measures with
  | @own kind name extent _ measured typed around =>
    have other : name ≠ tagMember := by
      obtain ⟨_, _, _, rfl, _, keeps⟩ := keeps_measure measured
      exact fun same => (List.nodup_cons.1 (Effect.nodup_names kind)).1 (same ▸ keeps.has.mem_names)
    obtain ⟨fill', typed', around', same⟩ := tagged_limitDepth typed around other (room + 1)
    exact ⟨fill', room + 1, .own measured typed' around', same⟩
  | condition typed around inside =>
    obtain ⟨outer', typed', around', same⟩ :=
      tagged_limitDepth typed around (by decide) (room + 1)
    obtain ⟨fill', room', inside', same'⟩ := inside.limitDepth room
    exact ⟨_, room', .condition typed' around' inside', fun inner => by rw [same, same']⟩

theorem Ability.Measures.limitDepth {fill : Doc → Doc} {gauge : Gauge Ability}
    (measures : Measures fill gauge) (room : Nat) : ∃ fill' room', Measures fill' gauge ∧
      ∀ inner, (fill inner).limitDepth (room + 4) = fill' (inner.limitDepth room') := by
  cases measures with
  | perTurn around =>
    obtain ⟨fill', around', same⟩ := around.limitDepth (room + 3)
    exact ⟨fill', room + 3, .perTurn around', same⟩
  | perGame around =>
    obtain ⟨fill', around', same⟩ := around.limitDepth (room + 3)
    exact ⟨fill', room + 3, .perGame around', same⟩
  | cost around inside =>
    obtain ⟨outer', around', same⟩ := around.limitDepth (room + 3)
    obtain ⟨fill', room', inside', same'⟩ := inside.limitDepth (room + 2)
    exact ⟨_, room', .cost around' inside', fun inner => by rw [same, same']⟩
  | effect around before after ending inside =>
    obtain ⟨outer', around', same⟩ := around.limitDepth (room + 3)
    obtain ⟨fill', room', inside', same'⟩ := inside.limitDepth room
    have place := Ability.Measures.effect around' (Doc.limitItems (room + 2) before)
      (Doc.limitItems (room + 2) after) ending inside'
    rw [Doc.limitItems_eq_map, List.length_map] at place
    refine ⟨_, room', place, fun inner => ?_⟩
    rw [same, Doc.limitDepth]
    simp only [Doc.limitItems_eq_map, List.map_append, List.map_cons, same']

theorem Condition.Measures.keepsText {fill : Doc → Doc} {gauge : Gauge Condition}
    (measures : Measures fill gauge) {inner inner' : Doc} (keeps : inner.KeepsText inner') :
    (fill inner).KeepsText (fill inner') :=
  measures.around.keepsText keeps

theorem Cost.Measures.keepsText {fill : Doc → Doc} {gauge : Gauge Cost}
    (measures : Measures fill gauge) {inner inner' : Doc} (keeps : inner.KeepsText inner') :
    (fill inner).KeepsText (fill inner') := by
  obtain ⟨_, around⟩ := measures.around
  exact around.keepsText keeps

theorem Effect.Measures.keepsText {fill : Doc → Doc} {gauge : Gauge Effect}
    (measures : Measures fill gauge) {inner inner' : Doc} (keeps : inner.KeepsText inner') :
    (fill inner).KeepsText (fill inner') := by
  cases measures with
  | own _ _ around => exact around.keepsText keeps
  | condition _ around inside => exact around.keepsText (inside.keepsText keeps)

theorem Ability.Measures.keepsText {fill : Doc → Doc} {gauge : Gauge Ability}
    (measures : Measures fill gauge) {inner inner' : Doc} (keeps : inner.KeepsText inner') :
    (fill inner).KeepsText (fill inner') := by
  cases measures with
  | perTurn around | perGame around => exact around.keepsText keeps
  | cost around inside => exact around.keepsText (inside.keepsText keeps)
  | effect around before after ending inside =>
    have listed := (Doc.Among.mk before after ending (inside.keepsText keeps)).keepsText id
    exact around.keepsText listed

/-! ## All readers -/

/-- Whether a reader takes the numbers inside its values for what they are: where one document is
read, put a literal in the place of a number and the text is read exactly if it is the literal of
an integer in the range of that number, and the value that is read has that integer and is written
with it. -/
def KeepsNumbers {α : Type} (read : Reader α) (write : α → Json)
    (Measures : (Doc → Doc) → Gauge α → Prop) : Prop :=
  ∀ fill gauge, Measures fill gauge → ∀ inner text value, Doc.IsText (fill inner) text →
    read.ofText text = .ok value → ∀ numeral literal, SpellsNumeral numeral literal →
      (∃ text', Doc.IsText (fill (.number numeral)) text') ∧
      ∀ text', Doc.IsText (fill (.number numeral)) text' →
        ((∃ value', read.ofText text' = .ok value') ↔
          ∃ n : Int, literal = (Number.int n).text.toList ∧ gauge.extent.Holds n) ∧
        ∀ value', read.ofText text' = .ok value' →
          ∃ n : Int, literal = (Number.int n).text.toList ∧ gauge.Shows write value' n

theorem keepsNumbers {α : Type} {read : Reader α} {write : α → Json}
    {Measures : (Doc → Doc) → Gauge α → Prop}
    (limited : ∀ {fill gauge}, Measures fill gauge → ∃ fill' room, Measures fill' gauge ∧
      ∀ inner, (fill inner).limitDepth Doc.maxDepth = fill' (inner.limitDepth room))
    (keeps : ∀ {fill gauge}, Measures fill gauge → ∀ {inner inner' : Doc},
      inner.KeepsText inner' → (fill inner).KeepsText (fill inner'))
    (exactly : ∀ {fill gauge}, Measures fill gauge →
      Exact (read .text) fill gauge.extent (gauge.Shows write)) :
    KeepsNumbers read write Measures := by
  intro fill gauge measures inner text value isText done numeral literal spelled
  have digits (n : Int) : numeral.integer? = some n ↔ literal = (Number.int n).text.toList :=
    spelled.integer?_eq_some_iff
  obtain ⟨fill', room, measures', same⟩ := limited measures
  have number : (Doc.number numeral).limitDepth room = .number numeral := by
    cases room <;> rfl
  rw [isText.ofText, same] at done
  refine ⟨?_, fun text' isText' => ?_⟩
  · exact Doc.exists_isText_iff.2 (keeps measures (fun _ => ⟨literal, .number spelled⟩)
      (Doc.exists_isText_iff.1 ⟨text, isText⟩))
  · rw [isText'.ofText, same, number]
    refine ⟨⟨fun ⟨value', done'⟩ => ?_, fun ⟨n, printed, holds⟩ => ?_⟩, fun value' done' => ?_⟩
    · obtain ⟨n, integer, holds, _⟩ := (exactly measures').only done'
      exact ⟨n, (digits n).1 integer, holds⟩
    · exact (exactly measures').reads done ((digits n).2 printed) holds
    · obtain ⟨n, integer, _, shown⟩ := (exactly measures').only done'
      exact ⟨n, (digits n).1 integer, shown⟩

/-- Wherever an ability, an effect, a cost or a condition has a number, by name or by position, a
literal there is read exactly if it is the literal of an integer in the range of that number. Then
the value has that integer, and is written with its literal. A literal with a fraction or an
exponent and that of a zero with a sign are none of these. -/
theorem numbers_kept :
    KeepsNumbers Ability.read Ability.toJson Ability.Measures ∧
    KeepsNumbers Effect.read Effect.toJson Effect.Measures ∧
    KeepsNumbers Cost.read Cost.toJson Cost.Measures ∧
    KeepsNumbers Condition.read Condition.toJson Condition.Measures ∧
    ∀ n : Int, (∃ numeral, SpellsNumeral numeral (Number.int n).text.toList) ∧
      (Number.int n).text ≠ "-0" ∧
      ∀ c ∈ (Number.int n).text.toList, c = '-' ∨ c.isDigit = true := by
  refine ⟨keepsNumbers (·.limitDepth 123) (·.keepsText) (·.exact),
    keepsNumbers (·.limitDepth 125) (·.keepsText) (·.exact),
    keepsNumbers (·.limitDepth 126) (·.keepsText) (·.exact),
    keepsNumbers (·.limitDepth 126) (·.keepsText) (·.exact), fun n => ?_⟩
  exact ⟨⟨.ofInt n, printedNumber_spells n⟩, text_int_plain n⟩

/-- The greatest number of turns that a condition may ask for, and one that is refused, although any
string in its place would be read. -/
theorem turns_limited :
    let text (turns : String) := "\x7b\"name\":\"Fell\",\"effects\":[\x7b\"type\":\"destroy\"," ++
      "\"target\":\"self\",\"condition\":\x7b\"type\":\"turn-count\",\"value\":" ++ turns ++
      "\x7d\x7d]\x7d"
    let place : List Step := [.member "effects", .item 0, .member "condition", .member "value"]
    (∃ ability, Ability.read.ofText (text "2147483647") = .ok ability ∧
      ability.toJson.follow? place = some (.number (.int 2147483647))) ∧
    (∀ ability, Ability.read.ofText (text "2147483648") ≠ .ok ability) ∧
    ∃ ability, Ability.read.ofText (text "\"2147483648\"") = .ok ability := by
  intro text place
  let condition (turns : Json) : Json := .object [("type", .string "turn-count"), ("value", turns)]
  let effect (turns : Json) : Json := .object [("type", .string "destroy"),
    ("target", .string "self"), ("condition", condition turns)]
  let json (turns : Json) : Json :=
    .object [("name", .string "Fell"), ("effects", .array [effect turns])]
  have isText {turns : Json} (fits : Fits 0 turns) (shown : String)
      (printed : (json turns).compact = text shown) :
      Doc.IsText (json turns).toDoc (text shown) := by
    have gate : Fits 1 (condition turns) := .object (by simp [Fits.string, fits])
    have gated : Fits 2 (effect turns) := .object (by simp [Fits.string, gate])
    have listed : Fits 3 (.array [effect turns]) := .array (by simpa using gated)
    have whole : Fits 4 (json turns) := .object (by simp [Fits.string, listed])
    exact printed ▸ whole.isText_compact
  have word := isText (.string "2147483648") "\"2147483648\"" (by decide +kernel)
  have most := isText (.int (by unfold InRange; omega : InRange 2147483647)) "2147483647"
    (by decide +kernel)
  have more := isText (.int (by unfold InRange; omega : InRange 2147483648)) "2147483648"
    (by decide +kernel)
  have inAbility : Doc.Around Ability.shape.names "effects" fun inner =>
      .object [(.ofText "name", .string (.ofText "Fell")), (.ofText "effects", inner)] .closed :=
    .member [(.ofText "name", _)] [] (Quoted.value_ofText _) .closed
  have inEffect : Doc.Around (tagMember :: (Effect.shape .destroy).names) "condition"
      fun inner => .object [(.ofText "type", .string (.ofText "destroy")),
        (.ofText "target", .string (.ofText "self")), (.ofText "condition", inner)] .closed :=
    .member [(.ofText "type", _), (.ofText "target", _)] [] (Quoted.value_ofText _) .closed
  have inCondition : Doc.Around Condition.shape.names "value" fun inner => .object
      [(.ofText "type", .string (.ofText "turn-count")), (.ofText "value", inner)] .closed :=
    .member [(.ofText "type", _)] [] (Quoted.value_ofText _) .closed
  have typed (inner : Doc) : (Doc.object [(.ofText "type", .string (.ofText "destroy")),
      (.ofText "target", .string (.ofText "self")), (.ofText "condition", inner)]
      .closed).HasKind EffectKind.destroy :=
    ⟨_, lookup_cons_self (Quoted.value_ofText _) _ _, Quoted.value_ofText _⟩
  have measures := Ability.Measures.effect inAbility [] [] .closed
    (.condition typed inEffect (.operand inCondition))
  obtain ⟨ability, found⟩ := Option.isSome_iff_exists.1 (by decide +kernel :
    (Ability.read.ofText (text "\"2147483648\"")).toOption.isSome = true)
  have reads : Ability.read.ofText (text "\"2147483648\"") = .ok ability :=
    eq_ok_of_toOption found
  have kept (n : Int) {text' : String}
      (spelled : Doc.IsText (json (.number (.int n))).toDoc text') :=
    (numbers_kept.1 _ _ measures _ _ _ word reads _ _ (printedNumber_spells n)).2 text' spelled
  refine ⟨?_, fun ability' read => ?_, ability, reads⟩
  · obtain ⟨ability', read⟩ := (kept 2147483647 most).1.2 ⟨_, rfl, by decide, by decide⟩
    obtain ⟨n, same, _, shown⟩ := (kept 2147483647 most).2 ability' read
    exact ⟨ability', read, text_int_injective same ▸ shown⟩
  · obtain ⟨n, same, _, bound⟩ := (kept 2147483648 more).1.1 ⟨ability', read⟩
    obtain rfl := text_int_injective same
    exact absurd bound (by decide)

end RulesText
