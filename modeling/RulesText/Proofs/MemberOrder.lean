import RulesText.Ability.Format
import RulesText.Proofs.Unordered

/-!
# The order of members never matters

What an ability, an effect, a cost or a condition is read from may be put into any order: an equal
value is read from every text that differs only in the order of members, in the object itself and
in any object within it.
-/

namespace RulesText
open Format Json Relation

/-! ## Operands and amounts -/

theorem Operand.leaf_of_ofDoc? {doc : Doc} {operand : Operand}
    (read : ofDoc? doc = some operand) : doc.Leaf := by
  unfold ofDoc? at read
  rw [Option.or_eq_some_iff, Option.or_eq_some_iff] at read
  rcases read with (number | ⟨_, affinity⟩) | ⟨_, counter⟩
  · obtain ⟨value, converted, _⟩ := Option.map_eq_some_iff.1 number
    obtain ⟨numeral, rfl⟩ := integer_eq_ok (eq_ok_of_toOption converted)
    exact .number numeral
  · obtain ⟨_, word, _⟩ := Option.map_eq_some_iff.1 affinity
    exact leaf_of_word? word
  · obtain ⟨_, tag, _⟩ := Option.map_eq_some_iff.1 counter
    exact leaf_of_tag? tag

theorem unordered_operand : Operand.read.Unordered :=
  unordered_alternatives_leaf Operand.leaf_of_ofDoc?

namespace AmountForm

/-- The formula of an object is the word behind its name, if the name occurs once. -/
theorem formula?_eq_some_iff {doc : Doc} {formula : Formula} : formula? doc = some formula ↔
    ∃ members ending value, doc = .object members ending ∧
      valuesOf members "formula" = [value] ∧ word? value = some formula := by
  unfold formula? valuesOf
  constructor
  · intro read
    split at read
    · rename_i members ending
      split at read
      · rename_i value single
        exact ⟨members, ending, value, rfl, by rw [single]; rfl, read⟩
      · cases read
    · cases read
  · rintro ⟨members, ending, value, rfl, single, word⟩
    obtain ⟨_, lone, rfl⟩ := List.map_eq_singleton_iff.1 single
    dsimp only
    split
    · rename_i found
      cases found.symm.trans lone
      exact word
    · rename_i other
      exact absurd lone (other _ _)

/-- An object is an amount by its formula only. -/
theorem ofDoc?_object (members : List (Quoted × Doc)) (ending : ObjectEnd) :
    ofDoc? (.object members ending) = (formula? (.object members ending)).map .computed := rfl

theorem ofDoc?_reorders {doc doc' : Doc} {form : AmountForm} (step : Doc.Reorders doc doc')
    (read : ofDoc? doc = some form) : ofDoc? doc' = some form := by
  have first := read
  unfold ofDoc? at first
  rw [Option.or_eq_some_iff, Option.or_eq_some_iff] at first
  rcases first with (number | ⟨_, keyword⟩) | ⟨_, computed⟩
  · obtain ⟨_, converted, _⟩ := Option.map_eq_some_iff.1 number
    obtain ⟨_, rfl⟩ := integer_eq_ok (eq_ok_of_toOption converted)
    cases step
  · obtain ⟨_, text, _⟩ := Option.map_eq_some_iff.1 keyword
    rw [(leaf_of_string? text).fixed doc' step]
    exact read
  · -- Other members may stand around the formula, and in another order.
    obtain ⟨formula, found, rfl⟩ := Option.map_eq_some_iff.1 computed
    obtain ⟨members, ending, value, rfl, alone, word⟩ := formula?_eq_some_iff.1 found
    obtain ⟨members', rfl, rearranged⟩ := step.object
    obtain ⟨value', alone', related⟩ := rearranged.single alone
    obtain rfl : value' = value := (leaf_of_word? word).fixed.related related
    rw [ofDoc?_object, formula?_eq_some_iff.2 ⟨members', ending, value', rfl, alone', word⟩]
    rfl

end AmountForm

theorem unordered_form : AmountForm.read.Unordered :=
  unordered_alternatives AmountForm.ofDoc?_reorders

theorem unordered_damageAmount : DamageAmount.read.Unordered :=
  unordered_form.bind DamageAmount.ofForm

theorem unordered_healAmount : HealAmount.read.Unordered :=
  unordered_form.bind HealAmount.ofForm

/-! ## Conditions and costs -/

theorem unordered_condition : Condition.read.Unordered :=
  Record.unordered (((Shape.Unordered.required "type" unordered_word).map _
    |>.seq (.optional "value" unordered_operand)).seq (.optional "comparison" unordered_word))

theorem unordered_cost : Cost.read.Unordered := by
  refine unordered_tagged _ fun kind => ?_
  have value := Shape.Unordered.optional "value" unordered_uint32
  cases kind with
  | removeCounter =>
    exact ((Shape.Unordered.required "counter" (unordered_openTag _)).map _).seq value
  | nectar | discard | sacrifice => exact value.map _

/-! ## Effects -/

theorem unordered_standingShape {shape : Shape Standing} (unordered : shape.Unordered) :
    (Effect.standingShape shape).Unordered :=
  ((((Shape.Unordered.required "target" (unordered_openTag _)).map _).seq unordered).seq
    (.required "duration" unordered_word)).seq (.optional "condition" unordered_condition)

theorem unordered_actShape {shape : Shape Act} (unordered : shape.Unordered) :
    (Effect.actShape shape).Unordered :=
  ((((Shape.Unordered.required "target" (unordered_openTag _)).map _).seq unordered).seq
    (.optional "duration" unordered_word)).seq (.optional "condition" unordered_condition)

theorem unordered_effect : Effect.read.Unordered := by
  refine unordered_tagged _ fun kind => ?_
  have value := Shape.Unordered.required "value" unordered_uint32
  have value? := Shape.Unordered.optional "value" unordered_uint32
  cases kind with
  | modifyStats =>
    exact unordered_standingShape (((Shape.Unordered.required "stat" unordered_word).map _).seq
      (.required "value" unordered_int32))
  | immunity =>
    exact unordered_standingShape ((Shape.Unordered.required "immuneTo" unordered_word.list).map _)
  | damageReduction => exact unordered_standingShape (value.map _)
  | dealDamage =>
    exact unordered_actShape (((Shape.Unordered.required "value" unordered_damageAmount).map _).seq
      (.defaulted "piercing" false unordered_boolean))
  | heal =>
    exact unordered_actShape ((Shape.Unordered.required "value" unordered_healAmount).map _)
  | applyCounter =>
    exact unordered_actShape (((Shape.Unordered.required "counter" (unordered_openTag _)).map _).seq
      value)
  | removeCounter =>
    exact unordered_actShape (((Shape.Unordered.optional "counter" (unordered_openTag _)).map _).seq
      value?)
  | cannotBeTargeted =>
    exact unordered_actShape (((Shape.Unordered.required "by" unordered_word.list).map _).seq
      (.optional "costThreshold" unordered_uint32))
  | attackModification =>
    exact unordered_actShape ((Shape.Unordered.required "modification" (unordered_openTag _)).map _)
  | move => exact unordered_actShape ((Shape.Unordered.defaulted "to" default unordered_word).map _)
  | gainResource =>
    exact unordered_actShape
      (((Shape.Unordered.defaulted "resource" default unordered_word).map _).seq value)
  | preventDamage => exact unordered_actShape (value?.map _)
  | searchDeck =>
    exact unordered_actShape (((value?.map _).seq (.optional "cardKind" unordered_word)).seq
      (.optional "affinity" unordered_word))
  | drawCards | temporaryHealth | retaliation => exact unordered_actShape (value.map _)
  | swap => exact unordered_actShape ((Shape.Unordered.required "swap" unordered_word).map _)
  | discard =>
    exact unordered_actShape ((value.map _).seq (.defaulted "random" false unordered_boolean))
  | redirectDamage =>
    exact unordered_actShape ((Shape.Unordered.required "to" (unordered_openTag _)).map _)
  | summonToken =>
    exact unordered_actShape
      (((Shape.Unordered.required "token" unordered_string).map _).seq value)
  | destroy | returnToHand | copyAbility | nullify | removeSummoningSickness =>
    exact unordered_actShape trivial

/-! ## Abilities -/

theorem unordered_ability : Ability.read.Unordered := by
  have name := Shape.Unordered.required "name" unordered_string
  have described := (name.map Ability.mk).seq (.defaulted "description" "" unordered_string)
  have triggered := described.seq (.optional "trigger" (unordered_openTag "AbilityTrigger"))
  have paid := triggered.seq (.optional "cost" unordered_cost)
  have effects := paid.seq (.defaulted "effects" [] unordered_effect.list)
  exact Record.unordered ((effects.seq (.optional "maxUsesPerTurn" unordered_uint32)).seq
    (.optional "maxUsesPerGame" unordered_uint32))

/-! ## Texts in another order -/

/-- Whether the order of members never matters to a reader: every text that it reads has a document,
and however members of objects anywhere in the document are permuted, there is a text of the
document in that order, and every such text is read as the same value. -/
def IgnoresOrder {α : Type} (read : Reader α) : Prop :=
  ∀ text value, read.ofText text = .ok value → (∃ doc, Doc.IsText doc text) ∧
    ∀ doc doc', Doc.IsText doc text → ReflTransGen Doc.Reorders doc doc' →
      (∃ text', doc'.IsText text') ∧ ∀ text', doc'.IsText text' → read.ofText text' = .ok value

theorem Format.Reader.Unordered.ignoresOrder {α : Type} {read : Reader α}
    (unordered : read.Unordered) : IgnoresOrder read := by
  intro text value done
  refine ⟨Doc.exists_isText (fun _ _ => unordered.whole) done, fun doc doc' spelled steps => ?_⟩
  refine ⟨Doc.exists_isText_of_reorders steps spelled, fun text' spelled' => ?_⟩
  rw [spelled.ofText] at done
  rw [spelled'.ofText]
  clear spelled'
  induction steps with
  | refl => exact done
  | tail _ step ih => exact unordered.keeps (step.limitDepth Doc.maxDepth) ih

/-- The order of members matters neither in abilities nor in effects, costs and conditions. -/
theorem reads_in_any_order :
    IgnoresOrder Ability.read ∧ IgnoresOrder Effect.read ∧ IgnoresOrder Cost.read ∧
      IgnoresOrder Condition.read :=
  ⟨unordered_ability.ignoresOrder, unordered_effect.ignoresOrder, unordered_cost.ignoresOrder,
    unordered_condition.ignoresOrder⟩

/-- An ability, and the same with its name behind its effects and the tag of its effect behind the
target. -/
theorem felling_in_any_order :
    Ability.read.ofText
        "\x7b\"name\":\"Fell\",\"effects\":[\x7b\"type\":\"destroy\",\"target\":\"self\"\x7d]\x7d" =
      .ok { name := "Fell", effects := [.destroy (.known .itself)] } ∧
    Ability.read.ofText
        "\x7b\"effects\":[\x7b\"target\":\"self\",\"type\":\"destroy\"\x7d],\"name\":\"Fell\"\x7d" =
      .ok { name := "Fell", effects := [.destroy (.known .itself)] } := by
  have done : Ability.read.ofText
      "\x7b\"name\":\"Fell\",\"effects\":[\x7b\"type\":\"destroy\",\"target\":\"self\"\x7d]\x7d" =
      .ok { name := "Fell", effects := [.destroy (.known .itself)] } :=
    eq_ok_of_toOption (by decide +kernel)
  have fits : Fits 3 (.object [("name", .string "Fell"), ("effects", .array
      [.object [("type", .string "destroy"), ("target", .string "self")]])]) :=
    .object (by simp [Fits.string, Fits.array, Fits.object])
  have fits' : Fits 3 (.object [("effects", .array
      [.object [("target", .string "self"), ("type", .string "destroy")]]),
      ("name", .string "Fell")]) :=
    .object (by simp [Fits.string, Fits.array, Fits.object])
  have inside : Doc.Reorders
      (.object (memberDocs [("type", .string "destroy"), ("target", .string "self")]) .closed)
      (.object (memberDocs [("target", .string "self"), ("type", .string "destroy")]) .closed) :=
    .members .closed (.swap _ _ _)
  have first := Doc.Reorders.member [(.ofText "name", .string (.ofText "Fell"))] []
    (.ofText "effects") .closed (.item [] [] .closed inside)
  have steps := ReflTransGen.head first (.single (.members .closed (.swap _ _ _)))
  have again := ((reads_in_any_order.1 _ _ done).2 _ _ fits.isText_compact steps).2
  exact ⟨done, again _ fits'.isText_compact⟩

end RulesText
