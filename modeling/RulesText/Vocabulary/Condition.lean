import RulesText.Format.Record
import RulesText.Vocabulary.Affinity
import RulesText.Vocabulary.Counter

/-!
# Conditions

A condition gates one effect: the effect applies only while the condition holds. Its operand is a
number, an affinity or a counter, and only some kinds of condition heed the comparison.
-/

namespace RulesText
open Format Json

/-- What a condition checks. -/
inductive ConditionKind where
  | hasCounter
  | healthBelow
  | healthAbove
  | costAbove
  | costBelow
  | affinityMatches
  | isDamaged
  | isWilting
  | turnCount
  | unitsOnField
  | resourceAvailable
  deriving DecidableEq, Repr

namespace ConditionKind

/-- How a kind of condition is spelled. -/
def spelling : ConditionKind → String
  | .hasCounter => "has-counter"
  | .healthBelow => "health-below"
  | .healthAbove => "health-above"
  | .costAbove => "cost-above"
  | .costBelow => "cost-below"
  | .affinityMatches => "affinity-matches"
  | .isDamaged => "is-damaged"
  | .isWilting => "is-wilting"
  | .turnCount => "turn-count"
  | .unitsOnField => "units-on-field"
  | .resourceAvailable => "resource-available"

instance : Vocabulary ConditionKind where
  words := [.hasCounter, .healthBelow, .healthAbove, .costAbove, .costBelow, .affinityMatches,
    .isDamaged, .isWilting, .turnCount, .unitsOnField, .resourceAvailable]
  spelling := ConditionKind.spelling
  find_spelling word := by cases word <;> decide

/-- Whether the condition compares with a number. -/
def isNumeric : ConditionKind → Bool
  | .healthBelow | .healthAbove | .costAbove | .costBelow | .turnCount | .unitsOnField
  | .resourceAvailable => true
  | .hasCounter | .affinityMatches | .isDamaged | .isWilting => false

/-- Whether the condition heeds its comparison. The thresholds of health and cost have an operator
of their own. -/
def takesComparison : ConditionKind → Bool
  | .turnCount | .unitsOnField | .resourceAvailable => true
  | _ => false

/-- Reads a kind of condition. -/
def read : Reader ConditionKind := word

end ConditionKind

/-- How a number is compared. -/
inductive Comparison where
  | equal
  | greater
  | less
  | greaterEqual
  | lessEqual
  deriving DecidableEq, Repr

namespace Comparison

/-- How a comparison is spelled. -/
def spelling : Comparison → String
  | .equal => "equal"
  | .greater => "greater"
  | .less => "less"
  | .greaterEqual => "greater-equal"
  | .lessEqual => "less-equal"

/-- The operator in rules text. -/
def symbol : Comparison → String
  | .equal => "="
  | .greater => ">"
  | .less => "<"
  | .greaterEqual => ">="
  | .lessEqual => "<="

instance : Vocabulary Comparison where
  words := [.equal, .greater, .less, .greaterEqual, .lessEqual]
  spelling := Comparison.spelling
  find_spelling word := by cases word <;> decide

/-- Reads a comparison. -/
def read : Reader Comparison := word

end Comparison

/-- What a condition compares with. -/
inductive Operand where
  | number (value : Int32)
  | affinity (element : Affinity)
  | counter (kind : Counter)
  deriving DecidableEq, Repr

namespace Operand

/-- The number that an operand may be. -/
def number? (doc : Doc) : Option Operand :=
  (int32 .buffer doc).toOption.map .number

/-- The first reading that fits: a number, an affinity, a counter. -/
def ofDoc? (doc : Doc) : Option Operand :=
  ((number? doc).or ((word? doc).map .affinity)).or ((tag? doc).map .counter)

/-- Reads an operand. -/
def read : Reader Operand := alternatives "ConditionValue" ofDoc?

/-- The written form: a number, or a tag as a string. -/
def toJson : Operand → Json
  | .number value => .ofInt32 value
  | .affinity element => wordJson element
  | .counter kind => kind.toJson

end Operand

/-- A gate that must hold for an effect to apply. -/
structure Condition where
  kind : ConditionKind
  operand : Option Operand := none
  comparison : Option Comparison := none
  deriving DecidableEq, Repr

namespace Condition

/-! ## Building -/

/-- Whether a counter lies on the Beast. -/
def hasCounter (counter : Counter) : Condition :=
  { kind := .hasCounter, operand := some (.counter counter) }

/-- Whether health is below a number. -/
def healthBelow (health : Int32) : Condition :=
  { kind := .healthBelow, operand := some (.number health) }

/-- Whether health is above a number. -/
def healthAbove (health : Int32) : Condition :=
  { kind := .healthAbove, operand := some (.number health) }

/-- Whether the cost is a number or more. -/
def costAbove (cost : Int32) : Condition :=
  { kind := .costAbove, operand := some (.number cost) }

/-- Whether the cost is below a number. -/
def costBelow (cost : Int32) : Condition :=
  { kind := .costBelow, operand := some (.number cost) }

/-- Whether the Beast has an affinity. -/
def affinityMatches (affinity : Affinity) : Condition :=
  { kind := .affinityMatches, operand := some (.affinity affinity) }

/-- Whether the Beast is damaged. -/
def damaged : Condition := { kind := .isDamaged }

/-- Whether the Beast wilts. -/
def wilting : Condition := { kind := .isWilting }

/-- How the number of turns compares. -/
def turnCount (turn : Int32) (comparison : Comparison) : Condition :=
  { kind := .turnCount, operand := some (.number turn), comparison := some comparison }

/-- How the number of Beasts on the field compares. -/
def unitsOnField (count : Int32) (comparison : Comparison) : Condition :=
  { kind := .unitsOnField, operand := some (.number count), comparison := some comparison }

/-- Whether so much nectar is there. -/
def resourceAvailable (amount : Int32) : Condition :=
  { kind := .resourceAvailable, operand := some (.number amount) }

/-- The condition with another operand. -/
def withOperand (condition : Condition) (operand : Operand) : Condition :=
  { condition with operand := some operand }

/-- The condition with another comparison. -/
def compared (condition : Condition) (comparison : Comparison) : Condition :=
  { condition with comparison := some comparison }

/-! ## Meaning -/

/-- The operand, if it is a number. -/
def number? (condition : Condition) : Option Int32 :=
  match condition.operand with
  | some (.number value) => some value
  | _ => none

theorem number?_eq_some_iff {condition : Condition} {number : Int32} :
    condition.number? = some number ↔ condition.operand = some (.number number) := by
  obtain ⟨kind, operand, comparison⟩ := condition
  match operand with
  | some (.number value) => simp [number?]
  | none | some (.affinity _) | some (.counter _) => simp [number?]

theorem number?_eq_none_iff {condition : Condition} :
    condition.number? = none ↔ ∀ number, condition.operand ≠ some (.number number) := by
  rw [Option.eq_none_iff_forall_ne_some]
  exact forall_congr' fun _ => not_congr number?_eq_some_iff

/-- The comparison, if the condition heeds it: its kind takes one and its operand is a number. -/
def effectiveComparison (condition : Condition) : Option Comparison :=
  if condition.kind.takesComparison then condition.number?.bind fun _ => condition.comparison
  else none

/-! ## Reading and writing -/

/-- The members of a condition. -/
def shape : Shape Condition :=
  Condition.mk <$> .required "type" ConditionKind.read <*> .optional "value" Operand.read
    <*> .optional "comparison" Comparison.read

/-- Conditions pass over members that they do not know. -/
def record : Record Condition := ⟨"struct AbilityCondition", true, shape⟩

/-- Reads a condition. -/
def read : Reader Condition := record.read

/-- The written form. -/
def toJson (condition : Condition) : Json :=
  .object (("type", wordJson condition.kind)
    :: present "value" Operand.toJson condition.operand
    ++ present "comparison" wordJson condition.comparison)

end Condition

end RulesText
