import RulesText.Ability.Format

/-!
# Tags that a reader takes for others

A tag may be kept as unknown although it is spelled like a known word, and an unknown counter may
be spelled like an affinity. The written form cannot tell them apart, so a reader resolves such a
tag to the word. A value is settled if it holds no such tag; resolving then leaves it alone, and in
any case it leaves the written form alone.
-/

namespace RulesText.Format.OpenTag

variable {κ : Type} [Vocabulary κ]

/-- The tag that is read for the spelling of a tag: an unknown one that is spelled like a known
word is that word. -/
def resolve : OpenTag κ → OpenTag κ
  | .known word => .known word
  | .unknown tag => .ofString tag

/-- Whether an unknown tag is spelled like no known word. -/
def Settled : OpenTag κ → Prop
  | .known _ => True
  | .unknown tag => (Vocabulary.find? tag : Option κ) = none

theorem ofString_eq_unknown_iff (tag : String) :
    (ofString tag : OpenTag κ) = .unknown tag ↔ (Vocabulary.find? tag : Option κ) = none := by
  unfold ofString
  split
  · rename_i word found
    simp [found]
  · rename_i unfound
    simp [unfound]

theorem resolve_eq_self_iff (tag : OpenTag κ) : tag.resolve = tag ↔ tag.Settled := by
  cases tag with
  | known word => exact ⟨fun _ => trivial, fun _ => rfl⟩
  | unknown tag => exact ofString_eq_unknown_iff tag

theorem toJson_resolve (tag : OpenTag κ) : tag.resolve.toJson = tag.toJson := by
  cases tag with
  | known word => rfl
  | unknown tag =>
    unfold resolve toJson
    rw [spelling_ofString, spelling]

end RulesText.Format.OpenTag

namespace RulesText
open Format Json

/-! ## Resolving -/

/-- The operand that is read for a written one: a tag is an affinity before it is a counter. -/
def Operand.resolve : Operand → Operand
  | .counter (.unknown tag) =>
    match (Vocabulary.find? tag : Option Affinity) with
    | some element => .affinity element
    | none => .counter (.ofString tag)
  | operand => operand

/-- The condition with its operand resolved. -/
def Condition.resolve (condition : Condition) : Condition :=
  { condition with operand := condition.operand.map Operand.resolve }

/-- The payment with its counter resolved. -/
def Payment.resolve : Payment → Payment
  | .removeCounter counter => .removeCounter counter.resolve
  | payment => payment

/-- The cost with its payment resolved. -/
def Cost.resolve (cost : Cost) : Cost := { cost with payment := cost.payment.resolve }

/-- The act with its counter, its modifier or its recipient resolved. -/
def Act.resolve : Act → Act
  | .applyCounter counter count => .applyCounter counter.resolve count
  | .removeCounter counter count => .removeCounter (counter.map OpenTag.resolve) count
  | .attackModification modifier => .attackModification modifier.resolve
  | .redirectDamage recipient => .redirectDamage recipient.resolve
  | act => act

/-- The deed with its act resolved; a standing change holds no tag. -/
def Deed.resolve : Deed → Deed
  | .standing change duration => .standing change duration
  | .act what duration => .act what.resolve duration

/-- The effect with its target, its deed and its condition resolved. -/
def Effect.resolve (effect : Effect) : Effect :=
  ⟨effect.target.resolve, effect.deed.resolve, effect.condition.map Condition.resolve⟩

/-- The ability with its trigger, its cost and its effects resolved. -/
def Ability.resolve (ability : Ability) : Ability :=
  { ability with
    trigger := ability.trigger.map OpenTag.resolve
    cost := ability.cost.map Cost.resolve
    effects := ability.effects.map Effect.resolve }

/-! ## Settled values -/

/-- Whether an unknown counter is spelled neither like an affinity nor like a known counter. -/
def Operand.Settled : Operand → Prop
  | .counter (.unknown tag) =>
    (Vocabulary.find? tag : Option Affinity) = none ∧ (Vocabulary.find? tag : Option Marker) = none
  | _ => True

/-- Whether the operand, if there is one, is settled. -/
def Condition.Settled (condition : Condition) : Prop :=
  ∀ operand ∈ condition.operand, operand.Settled

/-- Whether the counter, if there is one, is settled. -/
def Payment.Settled : Payment → Prop
  | .removeCounter counter => counter.Settled
  | _ => True

/-- Whether the payment is settled. -/
def Cost.Settled (cost : Cost) : Prop := cost.payment.Settled

/-- Whether the tags of an act are settled. -/
def Act.Settled : Act → Prop
  | .applyCounter counter _ => counter.Settled
  | .removeCounter counter _ => ∀ kind ∈ counter, kind.Settled
  | .attackModification modifier => modifier.Settled
  | .redirectDamage recipient => recipient.Settled
  | _ => True

/-- Whether the tags of a deed are settled. -/
def Deed.Settled : Deed → Prop
  | .standing _ _ => True
  | .act what _ => what.Settled

/-- Whether the target, the deed and the condition are settled. -/
structure Effect.Settled (effect : Effect) : Prop where
  target : effect.target.Settled
  deed : effect.deed.Settled
  condition : ∀ condition ∈ effect.condition, condition.Settled

/-- Whether all tags of the ability are settled. -/
structure Ability.Settled (ability : Ability) : Prop where
  trigger : ∀ trigger ∈ ability.trigger, trigger.Settled
  cost : ∀ cost ∈ ability.cost, cost.Settled
  effects : ∀ effect ∈ ability.effects, effect.Settled

/-! ## Resolving leaves settled values alone -/

theorem map_eq_self_iff {α : Type} {f : α → α} {P : α → Prop} (each : ∀ a, f a = a ↔ P a)
    (value : Option α) : value.map f = value ↔ ∀ a ∈ value, P a := by
  cases value with
  | none => simp
  | some a => simpa using each a

theorem list_map_eq_self_iff {α : Type} {f : α → α} {P : α → Prop} (each : ∀ a, f a = a ↔ P a)
    (values : List α) : values.map f = values ↔ ∀ a ∈ values, P a := by
  induction values with
  | nil => simp
  | cons a values ih => simp [each a, ih]

theorem Operand.resolve_affinity {tag : String} {element : Affinity}
    (found : Vocabulary.find? tag = some element) :
    resolve (.counter (.unknown tag)) = .affinity element := by
  simp only [resolve, found]

theorem Operand.resolve_counter {tag : String}
    (unfound : (Vocabulary.find? tag : Option Affinity) = none) :
    resolve (.counter (.unknown tag)) = .counter (.ofString tag) := by
  simp only [resolve, unfound]

theorem Operand.resolve_eq_self_iff (operand : Operand) :
    operand.resolve = operand ↔ operand.Settled := by
  cases operand with
  | number value => exact ⟨fun _ => trivial, fun _ => rfl⟩
  | affinity element => exact ⟨fun _ => trivial, fun _ => rfl⟩
  | counter kind =>
    cases kind with
    | known marker => exact ⟨fun _ => trivial, fun _ => rfl⟩
    | unknown tag =>
      cases found : (Vocabulary.find? tag : Option Affinity) with
      | some element => simp [resolve_affinity found, Settled, found]
      | none =>
        have markers : (OpenTag.ofString tag : Counter) = .unknown tag ↔
            (Vocabulary.find? tag : Option Marker) = none := OpenTag.ofString_eq_unknown_iff tag
        simp [resolve_counter found, Settled, found, markers]

theorem Condition.resolve_eq_self_iff (condition : Condition) :
    condition.resolve = condition ↔ condition.Settled := by
  obtain ⟨kind, operand, comparison⟩ := condition
  have operands := map_eq_self_iff Operand.resolve_eq_self_iff operand
  simpa [resolve, Settled] using operands

theorem Cost.resolve_eq_self_iff (cost : Cost) : cost.resolve = cost ↔ cost.Settled := by
  obtain ⟨payment, value⟩ := cost
  cases payment with
  | removeCounter counter =>
    have counters := counter.resolve_eq_self_iff
    simpa [resolve, Settled, Payment.resolve, Payment.Settled] using counters
  | _ => exact ⟨fun _ => trivial, fun _ => rfl⟩

theorem Act.resolve_eq_self_iff (act : Act) : act.resolve = act ↔ act.Settled := by
  cases act with
  | applyCounter counter count =>
    have counters := counter.resolve_eq_self_iff
    simpa [resolve, Settled] using counters
  | removeCounter counter count =>
    have counters := map_eq_self_iff OpenTag.resolve_eq_self_iff counter
    simpa [resolve, Settled] using counters
  | attackModification modifier =>
    have modifiers := modifier.resolve_eq_self_iff
    simpa [resolve, Settled] using modifiers
  | redirectDamage recipient =>
    have recipients := recipient.resolve_eq_self_iff
    simpa [resolve, Settled] using recipients
  | _ => exact ⟨fun _ => trivial, fun _ => rfl⟩

theorem Deed.resolve_eq_self_iff (deed : Deed) : deed.resolve = deed ↔ deed.Settled := by
  cases deed with
  | standing change duration => exact ⟨fun _ => trivial, fun _ => rfl⟩
  | act what duration =>
    have acts := what.resolve_eq_self_iff
    simpa [resolve, Settled] using acts

theorem Effect.resolve_eq_self_iff (effect : Effect) :
    effect.resolve = effect ↔ effect.Settled := by
  obtain ⟨target, deed, condition⟩ := effect
  have targets := target.resolve_eq_self_iff
  have deeds := deed.resolve_eq_self_iff
  have conditions := map_eq_self_iff Condition.resolve_eq_self_iff condition
  rw [resolve, Effect.mk.injEq, targets, deeds, conditions]
  exact ⟨fun ⟨t, d, c⟩ => ⟨t, d, c⟩, fun ⟨t, d, c⟩ => ⟨t, d, c⟩⟩

/-- Resolving changes exactly the abilities that are not settled. -/
theorem Ability.resolve_eq_self_iff (ability : Ability) :
    ability.resolve = ability ↔ ability.Settled := by
  obtain ⟨name, description, trigger, cost, effects, perTurn, perGame⟩ := ability
  have triggers := map_eq_self_iff OpenTag.resolve_eq_self_iff trigger
  have costs := map_eq_self_iff Cost.resolve_eq_self_iff cost
  have others := list_map_eq_self_iff Effect.resolve_eq_self_iff effects
  simp only [resolve, Ability.mk.injEq, triggers, costs, others, true_and, and_true]
  exact ⟨fun ⟨t, c, e⟩ => ⟨t, c, e⟩, fun ⟨t, c, e⟩ => ⟨t, c, e⟩⟩

/-! ## Resolving leaves the written form alone -/

theorem present_map {α : Type} {f : α → α} {write : α → Json} (same : ∀ a, write (f a) = write a)
    (name : String) (value : Option α) :
    present name write (value.map f) = present name write value := by
  cases value with
  | none => rfl
  | some a => simp [present, same]

theorem Operand.toJson_resolve (operand : Operand) : operand.resolve.toJson = operand.toJson := by
  cases operand with
  | number value => rfl
  | affinity element => rfl
  | counter kind =>
    cases kind with
    | known marker => rfl
    | unknown tag =>
      cases found : (Vocabulary.find? tag : Option Affinity) with
      | some element =>
        have spelled : Vocabulary.spelling element = tag := Vocabulary.spelling_of_find? found
        simp only [resolve_affinity found, toJson, wordJson, OpenTag.toJson, OpenTag.spelling,
          spelled]
      | none =>
        rw [resolve_counter found]
        exact (OpenTag.unknown tag : Counter).toJson_resolve

theorem Condition.toJson_resolve (condition : Condition) :
    condition.resolve.toJson = condition.toJson := by
  unfold resolve toJson
  rw [present_map Operand.toJson_resolve]

theorem Cost.toJson_resolve (cost : Cost) : cost.resolve.toJson = cost.toJson := by
  obtain ⟨payment, value⟩ := cost
  cases payment with
  | removeCounter counter =>
    have counters := counter.toJson_resolve
    simp [resolve, Payment.resolve, toJson, kind, Payment.kind, paymentMembers, counters]
  | _ => rfl

theorem Act.members_resolve (act : Act) :
    Effect.actMembers act.resolve = Effect.actMembers act ∧ act.resolve.kind = act.kind := by
  cases act with
  | applyCounter counter count =>
    exact ⟨by simp [resolve, Effect.actMembers, counter.toJson_resolve], rfl⟩
  | removeCounter counter count =>
    exact ⟨by simp [resolve, Effect.actMembers, present_map OpenTag.toJson_resolve], rfl⟩
  | attackModification modifier =>
    exact ⟨by simp [resolve, Effect.actMembers, modifier.toJson_resolve], rfl⟩
  | redirectDamage recipient =>
    exact ⟨by simp [resolve, Effect.actMembers, recipient.toJson_resolve], rfl⟩
  | _ => exact ⟨rfl, rfl⟩

theorem Effect.toJson_resolve (effect : Effect) : effect.resolve.toJson = effect.toJson := by
  obtain ⟨target, deed, condition⟩ := effect
  have conditions := present_map Condition.toJson_resolve "condition" condition
  cases deed with
  | standing change duration =>
    simp only [resolve, toJson, target.toJson_resolve, conditions]
    rfl
  | act what duration =>
    obtain ⟨members, kinds⟩ := what.members_resolve
    simp only [resolve, toJson, target.toJson_resolve, conditions, kind, Deed.resolve, Deed.kind,
      deedMembers, members, kinds]
    rfl

/-- Resolving leaves the written form of an ability alone. -/
theorem Ability.toJson_resolve (ability : Ability) : ability.resolve.toJson = ability.toJson := by
  have effects : (ability.effects.map Effect.resolve).map Effect.toJson =
      ability.effects.map Effect.toJson := by
    rw [List.map_map]
    exact List.map_congr_left fun effect _ => effect.toJson_resolve
  unfold resolve toJson
  simp only [present_map OpenTag.toJson_resolve, present_map Cost.toJson_resolve, effects]

end RulesText
