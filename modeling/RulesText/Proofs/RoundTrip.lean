import RulesText.Proofs.ReadBack
import RulesText.Proofs.Resolution

/-!
# Written values are read back

Every value of the format is read back from its written form as the value with its tags resolved:
tags and amounts first, then the records that they stand in, up to abilities and lists of them.
-/

namespace RulesText
open Format Json

variable {room : Nat}

/-! ## Tags, operands and amounts -/

theorem string?_toDoc (text : String) : string? (Json.string text).toDoc = some text := by
  simp [string?, toDoc, Except.toOption]

theorem word?_toDoc {κ : Type} [Vocabulary κ] (text : String) :
    (word? (Json.string text).toDoc : Option κ) = Vocabulary.find? text := by
  simp [word?, toDoc, Except.toOption]

theorem tag?_toDoc {κ : Type} [Vocabulary κ] (text : String) :
    (tag? (Json.string text).toDoc : Option (OpenTag κ)) = some (.ofString text) := by
  unfold tag? OpenTag.ofString
  rw [word?_toDoc, string?_toDoc]
  cases (Vocabulary.find? text : Option κ) <;> rfl

/-- A value that fits is read by the first reading that fits it. -/
theorem returns_alternatives {α : Type} {type : String} {read? : Doc → Option α} {j : Json} {a : α}
    (fits : j.Fits room) (read : read? j.toDoc = some a) :
    Returns room (alternatives type read?) j a := by
  refine ⟨fits, fun source => ?_⟩
  simp [alternatives, fits.check, read, bind, Except.bind, pure, Except.pure]

theorem ofString_spelling {κ : Type} [Vocabulary κ] (tag : OpenTag κ) :
    .ofString tag.spelling = tag.resolve := by
  cases tag with
  | known word =>
    simp [OpenTag.ofString, OpenTag.spelling, Vocabulary.find?_spelling, OpenTag.resolve]
  | unknown tag => rfl

/-- A tag is read back as the one that its spelling resolves to. -/
theorem returns_openTag {κ : Type} [Vocabulary κ] (type : String) (tag : OpenTag κ) :
    Returns room (openTag type) tag.toJson tag.resolve := by
  refine returns_alternatives (.string _) ?_
  rw [OpenTag.toJson, tag?_toDoc, ofString_spelling]

theorem number?_string (text : String) : Operand.number? (Json.string text).toDoc = none := by
  simp [Operand.number?, int32, integer, toDoc, Doc.mismatch, Doc.found, bind, Except.bind, pure,
    Except.pure, Except.toOption]

/-- A word that is no affinity is read as a counter. -/
theorem ofDoc?_string (text : String) :
    Operand.ofDoc? (Json.string text).toDoc =
      ((Vocabulary.find? text).map Operand.affinity).or (some (.counter (.ofString text))) := by
  unfold Operand.ofDoc?
  rw [number?_string, word?_toDoc, tag?_toDoc]
  rfl

theorem marker_no_affinity (marker : Marker) :
    (Vocabulary.find? (Vocabulary.spelling marker) : Option Affinity) = none := by
  cases marker <;> decide

theorem returns_operand (operand : Operand) :
    Returns room Operand.read operand.toJson operand.resolve := by
  cases operand with
  | number value =>
    have read := (returns_int32 value : Returns room int32 _ _)
    refine returns_alternatives read.fits ?_
    simp [Operand.ofDoc?, Operand.number?, Operand.toJson, read.reads, Except.toOption,
      Operand.resolve]
  | affinity element =>
    refine returns_alternatives (.string _) ?_
    rw [Operand.toJson, wordJson, ofDoc?_string, Vocabulary.find?_spelling]
    rfl
  | counter kind =>
    refine returns_alternatives (.string _) ?_
    rw [Operand.toJson, OpenTag.toJson, ofDoc?_string]
    cases kind with
    | known marker =>
      rw [OpenTag.spelling, marker_no_affinity, OpenTag.ofString, Vocabulary.find?_spelling]
      rfl
    | unknown tag =>
      rw [OpenTag.spelling]
      cases found : (Vocabulary.find? tag : Option Affinity) with
      | some element => rw [Operand.resolve_affinity found]; rfl
      | none => rw [Operand.resolve_counter found]; rfl

theorem formula?_toDoc (formula : Formula) :
    AmountForm.formula? (Json.object [("formula", wordJson formula)]).toDoc = some formula := by
  simp [AmountForm.formula?, toDoc, memberDocs, Quoted.is_ofText, wordJson, word?, Except.toOption,
    Vocabulary.find?_spelling]

/-- Numbers, keywords and formulas are told apart by their written form. -/
theorem returns_form (form : AmountForm) :
    Returns (room + 1) AmountForm.read form.toJson form := by
  cases form with
  | number value =>
    have read := (returns_uint32 value : Returns (room + 1) uint32 _ _)
    refine returns_alternatives read.fits ?_
    simp [AmountForm.ofDoc?, AmountForm.toJson, read.reads, Except.toOption]
  | keyword text =>
    refine returns_alternatives (.string text) ?_
    have number : uint32 .buffer (Json.string text).toDoc =
        .error (.mismatch (.wrongType (.string text) "u32")) := by
      simp [uint32, integer, toDoc, Doc.mismatch, Doc.found, bind, Except.bind, pure, Except.pure]
    simp [AmountForm.ofDoc?, AmountForm.toJson, number, string?_toDoc, Except.toOption]
  | computed formula =>
    have fits : (Json.object [("formula", wordJson formula)]).Fits (room + 1) := by
      refine .object fun member listed => ?_
      rw [List.mem_singleton.1 listed]
      exact .string _
    refine returns_alternatives fits ?_
    have number : uint32 .buffer (Json.object [("formula", wordJson formula)]).toDoc =
        .error (.mismatch (.wrongType .object "u32")) := rfl
    have keyword : string? (Json.object [("formula", wordJson formula)]).toDoc = none := rfl
    simp [AmountForm.ofDoc?, AmountForm.toJson, number, keyword, formula?_toDoc, Except.toOption]

theorem returns_damageAmount (amount : DamageAmount) :
    Returns (room + 1) DamageAmount.read amount.toJson amount := by
  have form := (returns_form amount.form : Returns (room + 1) AmountForm.read _ _)
  refine ⟨form.fits, fun source => ?_⟩
  rw [DamageAmount.read, DamageAmount.toJson, form.reads source]
  cases amount <;> rfl

theorem returns_healAmount (amount : HealAmount) :
    Returns (room + 1) HealAmount.read amount.toJson amount := by
  have form := (returns_form amount.form : Returns (room + 1) AmountForm.read _ _)
  refine ⟨form.fits, fun source => ?_⟩
  rw [HealAmount.read, HealAmount.toJson, form.reads source]
  cases amount <;> rfl

/-! ## Conditions and costs -/

theorem operand_nonnull (operand : Operand) : operand.toJson ≠ .null := by
  cases operand <;> nofun

theorem written_word {κ : Type} [Vocabulary κ] {name : String} (value : Option κ) :
    Written room (.optional name word) (present name wordJson value) value :=
  .optional_self name value returns_word fun _ => nofun

theorem written_condition (condition : Condition) :
    Written room Condition.shape (("type", wordJson condition.kind)
      :: present "value" Operand.toJson condition.operand
      ++ present "comparison" wordJson condition.comparison) condition.resolve := by
  have kind := Written.required "type" (returns_word condition.kind : Returns room _ _ _)
  have operand := Written.optional "value" condition.operand
    (fun operand => (returns_operand operand : Returns room _ _ _)) operand_nonnull
  exact ((kind.map Condition.mk).seq operand).seq (written_word condition.comparison)

theorem returns_condition (condition : Condition) :
    Returns (room + 1) Condition.read condition.toJson condition.resolve :=
  (written_condition condition).returns (by decide)

theorem written_count (name : String) (value : Option UInt32) :
    Written room (.optional name uint32) (present name .ofUInt32 value) value :=
  .optional_self name value returns_uint32 fun _ => nofun

/-- No kind of cost has two members of one name, or one that is named like the tag. -/
theorem Cost.nodup_names (kind : CostKind) :
    (tagMember :: (Cost.record kind).shape.names).Nodup := by
  cases kind <;> decide

/-- The members of each cost, the tag aside, are read back as that cost. -/
theorem written_cost (cost : Cost) :
    Written room (Cost.shape cost.kind)
      (Cost.paymentMembers cost.payment ++ present "value" .ofUInt32 cost.value) cost.resolve := by
  obtain ⟨payment, value⟩ := cost
  have amount := (written_count "value" value : Written room _ _ _)
  cases payment with
  | removeCounter counter =>
    have paid := Written.required "counter"
      (returns_openTag "CounterKind" counter : Returns room Counter.read _ _)
    exact (paid.map fun counter => Cost.mk (.removeCounter counter)).seq amount
  | nectar | discard | sacrifice => exact amount.map _

theorem returns_cost (cost : Cost) :
    Returns (room + 1) Cost.read cost.toJson cost.resolve :=
  (written_cost cost).returns_tagged (Cost.nodup_names cost.kind) _

/-! ## Effects -/

theorem returns_wordList {κ : Type} [Vocabulary κ] (words : List κ) :
    Returns (room + 1) (list word) (.array (words.map wordJson)) words := by
  have returns := returns_list words fun w _ => (returns_word w : Returns room word _ _)
  rwa [List.map_id'] at returns

/-- The members of a standing change, around those of the change itself. -/
theorem written_standingShape {shape : Shape Standing} {change : Standing} {duration : Duration}
    (target : Target) (condition : Option Condition)
    (written : Written (room + 1) shape (Effect.standingMembers change) change) :
    Written (room + 1) (Effect.standingShape shape)
      (("target", target.toJson) :: Effect.standingMembers change
        ++ present "duration" wordJson (some duration)
        ++ present "condition" Condition.toJson condition)
      (Effect.resolve ⟨target, .standing change duration, condition⟩) := by
  have aimed := Written.required "target"
    (returns_openTag "AbilityTarget" target : Returns (room + 1) Target.read _ _)
  have lasting := Written.required "duration"
    (returns_word duration : Returns (room + 1) Duration.read _ _)
  have gated := Written.optional "condition" condition
    (fun condition => (returns_condition condition : Returns (room + 1) _ _ _))
    (fun condition => by nofun)
  exact (((aimed.map _).seq written).seq lasting).seq gated

/-- The members of an act, around those of the act itself. -/
theorem written_actShape {shape : Shape Act} {act : Act} {duration : Option Duration}
    (target : Target) (condition : Option Condition)
    (written : Written (room + 1) shape (Effect.actMembers act) act.resolve) :
    Written (room + 1) (Effect.actShape shape)
      (("target", target.toJson) :: Effect.actMembers act ++ present "duration" wordJson duration
        ++ present "condition" Condition.toJson condition)
      (Effect.resolve ⟨target, .act act duration, condition⟩) := by
  have aimed := Written.required "target"
    (returns_openTag "AbilityTarget" target : Returns (room + 1) Target.read _ _)
  have lasting := (written_word duration : Written (room + 1) (.optional "duration" word) _ _)
  have gated := Written.optional "condition" condition
    (fun condition => (returns_condition condition : Returns (room + 1) _ _ _))
    (fun condition => by nofun)
  exact (((aimed.map _).seq written).seq lasting).seq gated

/-- The members of each change are read back as that change. -/
theorem written_standing (change : Standing) {duration : Duration} (target : Target)
    (condition : Option Condition) :
    Written (room + 1) (Effect.shape change.kind)
      (("target", target.toJson) :: Effect.standingMembers change
        ++ present "duration" wordJson (some duration)
        ++ present "condition" Condition.toJson condition)
      (Effect.resolve ⟨target, .standing change duration, condition⟩) := by
  cases change with
  | modifyStats stat value =>
    have stat := Written.required "stat" (returns_word stat : Returns (room + 1) Stat.read _ _)
    have value := Written.required "value" (returns_int32 value : Returns (room + 1) _ _ _)
    exact written_standingShape target condition ((stat.map Standing.modifyStats).seq value)
  | immunity sources =>
    have sources := Written.required "immuneTo"
      (returns_wordList sources : Returns (room + 1) (list ImmunitySource.read) _ _)
    exact written_standingShape target condition (sources.map Standing.immunity)
  | damageReduction amount =>
    have amount := Written.required "value" (returns_uint32 amount : Returns (room + 1) _ _ _)
    exact written_standingShape target condition (amount.map Standing.damageReduction)

/-- The members of each act are read back as that act. -/
theorem written_act (act : Act) {duration : Option Duration} (target : Target)
    (condition : Option Condition) :
    Written (room + 1) (Effect.shape act.kind)
      (("target", target.toJson) :: Effect.actMembers act ++ present "duration" wordJson duration
        ++ present "condition" Condition.toJson condition)
      (Effect.resolve ⟨target, .act act duration, condition⟩) := by
  have count := fun (name : String) (n : UInt32) =>
    Written.required name (returns_uint32 n : Returns (room + 1) uint32 _ _)
  have some_count := fun (name : String) (n : Option UInt32) =>
    (written_count name n : Written (room + 1) _ _ _)
  cases act with
  | dealDamage amount piercing =>
    have amount := Written.required "value"
      (returns_damageAmount amount : Returns (room + 1) _ _ _)
    have piercing : Written (room + 1) _ _ piercing := .flag "piercing" piercing
    exact written_actShape target condition ((amount.map Act.dealDamage).seq piercing)
  | heal amount =>
    have amount := Written.required "value" (returns_healAmount amount : Returns (room + 1) _ _ _)
    exact written_actShape target condition (amount.map Act.heal)
  | drawCards n => exact written_actShape target condition ((count "value" n).map Act.drawCards)
  | applyCounter counter n =>
    have counter := Written.required "counter"
      (returns_openTag "CounterKind" counter : Returns (room + 1) Counter.read _ _)
    exact written_actShape target condition ((counter.map Act.applyCounter).seq (count "value" n))
  | removeCounter counter n =>
    have counter := Written.optional "counter" counter
      (fun tag => (returns_openTag "CounterKind" tag : Returns (room + 1) Counter.read _ _))
      (fun tag => by nofun)
    exact written_actShape target condition
      ((counter.map Act.removeCounter).seq (some_count "value" n))
  | cannotBeTargeted sources threshold =>
    have sources := Written.required "by"
      (returns_wordList sources : Returns (room + 1) (list TargetingSource.read) _ _)
    exact written_actShape target condition
      ((sources.map Act.cannotBeTargeted).seq (some_count "costThreshold" threshold))
  | attackModification modifier =>
    have modifier := Written.required "modification"
      (returns_openTag "AttackModifier" modifier : Returns (room + 1) AttackModifier.read _ _)
    exact written_actShape target condition (modifier.map Act.attackModification)
  | move destination =>
    have destination := Written.defaulted "to" default
      (returns_word destination : Returns (room + 1) Destination.read _ _)
    exact written_actShape target condition (destination.map Act.move)
  | gainResource resource n =>
    have resource := Written.defaulted "resource" default
      (returns_word resource : Returns (room + 1) Resource.read _ _)
    exact written_actShape target condition ((resource.map Act.gainResource).seq (count "value" n))
  | preventDamage n =>
    exact written_actShape target condition ((some_count "value" n).map Act.preventDamage)
  | searchDeck n card affinity =>
    have card : Written (room + 1) (.optional "cardKind" CardKind.read) _ card :=
      written_word card
    have affinity : Written (room + 1) (.optional "affinity" Affinity.read) _ affinity :=
      written_word affinity
    have found := (((some_count "value" n).map Act.searchDeck).seq card).seq affinity
    exact written_actShape target condition found
  | destroy => exact written_actShape target condition (.value Act.destroy)
  | temporaryHealth n =>
    exact written_actShape target condition ((count "value" n).map Act.temporaryHealth)
  | retaliation n => exact written_actShape target condition ((count "value" n).map Act.retaliation)
  | swap what =>
    have what := Written.required "swap" (returns_word what : Returns (room + 1) SwapKind.read _ _)
    exact written_actShape target condition (what.map Act.swap)
  | returnToHand => exact written_actShape target condition (.value Act.returnToHand)
  | discard n random =>
    have random : Written (room + 1) _ _ random := .flag "random" random
    exact written_actShape target condition (((count "value" n).map Act.discard).seq random)
  | copyAbility => exact written_actShape target condition (.value Act.copyAbility)
  | nullify => exact written_actShape target condition (.value Act.nullify)
  | redirectDamage recipient =>
    have recipient := Written.required "to"
      (returns_openTag "AbilityTarget" recipient : Returns (room + 1) Target.read _ _)
    exact written_actShape target condition (recipient.map Act.redirectDamage)
  | removeSummoningSickness =>
    exact written_actShape target condition (.value Act.removeSummoningSickness)
  | summonToken token n =>
    have token := Written.required "token" (returns_string token : Returns (room + 1) _ _ _)
    exact written_actShape target condition ((token.map Act.summonToken).seq (count "value" n))

/-- No kind of effect has two members of one name, or one that is named like the tag. -/
theorem Effect.nodup_names (kind : EffectKind) :
    (tagMember :: (Effect.record kind).shape.names).Nodup := by
  cases kind <;> decide

theorem returns_effect (effect : Effect) :
    Returns (room + 2) Effect.read effect.toJson effect.resolve := by
  obtain ⟨target, deed, condition⟩ := effect
  cases deed with
  | standing change duration =>
    exact (written_standing change target condition).returns_tagged (Effect.nodup_names _) _
  | act what duration =>
    exact (written_act what target condition).returns_tagged (Effect.nodup_names _) _

/-! ## Abilities -/

theorem written_ability (ability : Ability) :
    Written (room + 3) Ability.shape
      ([("name", .string ability.name), ("description", .string ability.description)]
        ++ present "trigger" OpenTag.toJson ability.trigger
        ++ present "cost" Cost.toJson ability.cost
        ++ [("effects", .array (ability.effects.map Effect.toJson))]
        ++ present "maxUsesPerTurn" .ofUInt32 ability.perTurn
        ++ present "maxUsesPerGame" .ofUInt32 ability.perGame) ability.resolve := by
  have name := Written.required "name" (returns_string ability.name : Returns (room + 3) _ _ _)
  have description := Written.defaulted "description" ""
    (returns_string ability.description : Returns (room + 3) _ _ _)
  have trigger := Written.optional "trigger" ability.trigger
    (fun tag => (returns_openTag "AbilityTrigger" tag : Returns (room + 3) Trigger.read _ _))
    (fun tag => by nofun)
  have cost := Written.optional "cost" ability.cost
    (fun cost => (returns_cost cost : Returns (room + 3) Cost.read _ _)) (fun cost => by nofun)
  have effects := Written.defaulted "effects" [] (returns_list ability.effects
    fun effect _ => (returns_effect effect : Returns (room + 2) _ _ _))
  have named := (name.map Ability.mk).seq description
  have paid := (named.seq trigger).seq cost
  exact ((paid.seq effects).seq (written_count "maxUsesPerTurn" ability.perTurn)).seq
    (written_count "maxUsesPerGame" ability.perGame)

theorem returns_ability (ability : Ability) :
    Returns (room + 4) Ability.read ability.toJson ability.resolve :=
  (written_ability ability).returns (by decide)

theorem returns_abilities (abilities : List Ability) :
    Returns (room + 5) (list Ability.read) (.array (abilities.map Ability.toJson))
      (abilities.map Ability.resolve) :=
  returns_list abilities fun ability _ => (returns_ability ability : Returns (room + 4) _ _ _)

/-- Every ability is read back from its written text as the ability with its tags resolved.
Resolving changes exactly the abilities with a tag that is spelled like a word that a reader knows,
and it changes no written form. -/
theorem Ability.ofText_written (ability : Ability) :
    Ability.read.ofText ability.toJson.compact = .ok ability.resolve ∧
      Ability.read.ofText ability.toJson.pretty = .ok ability.resolve ∧
      (ability.resolve = ability ↔ ability.Settled) ∧
      ability.resolve.toJson = ability.toJson := by
  obtain ⟨compact, pretty⟩ := (returns_ability ability : Returns Doc.maxDepth _ _ _).ofText
  exact ⟨compact, pretty, ability.resolve_eq_self_iff, ability.toJson_resolve⟩

end RulesText
