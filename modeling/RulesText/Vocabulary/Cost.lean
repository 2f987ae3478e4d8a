import RulesText.Format.Tagged
import RulesText.Vocabulary.Counter

/-!
# Costs

What is paid to use an activated ability. Only the removal of counters names a counter, and an
amount that is not given is one.
-/

namespace RulesText
open Format Json

/-- The kinds of payment. -/
inductive CostKind where
  | nectar
  | discard
  | sacrifice
  | removeCounter
  deriving DecidableEq, Repr

/-- How a kind of payment is spelled. -/
def CostKind.spelling : CostKind → String
  | .nectar => "nectar"
  | .discard => "discard"
  | .sacrifice => "sacrifice"
  | .removeCounter => "remove-counter"

instance : Vocabulary CostKind where
  words := [.nectar, .discard, .sacrifice, .removeCounter]
  spelling := CostKind.spelling
  find_spelling word := by cases word <;> decide

/-- What is paid with. -/
inductive Payment where
  | nectar
  | discard
  | sacrifice
  | removeCounter (counter : Counter)
  deriving DecidableEq, Repr

/-- The kind of a payment. -/
def Payment.kind : Payment → CostKind
  | .nectar => .nectar
  | .discard => .discard
  | .sacrifice => .sacrifice
  | .removeCounter _ => .removeCounter

/-- What an ability costs to use. -/
structure Cost where
  payment : Payment
  value : Option UInt32 := none
  deriving DecidableEq, Repr

namespace Cost

/-- The kind of payment. -/
def kind (cost : Cost) : CostKind := cost.payment.kind

/-- How much is paid. -/
def amount (cost : Cost) : UInt32 := cost.value.getD 1

/-- The members of a cost of each kind, the tag aside. -/
def shape : CostKind → Shape Cost
  | .nectar => Cost.mk .nectar <$> .optional "value" uint32
  | .discard => Cost.mk .discard <$> .optional "value" uint32
  | .sacrifice => Cost.mk .sacrifice <$> .optional "value" uint32
  | .removeCounter =>
    (fun counter => Cost.mk (.removeCounter counter)) <$> .required "counter" Counter.read
      <*> .optional "value" uint32

/-- What messages call a cost of each kind. -/
def title : CostKind → String
  | .nectar => "struct variant AbilityCost::Nectar"
  | .discard => "struct variant AbilityCost::Discard"
  | .sacrifice => "struct variant AbilityCost::Sacrifice"
  | .removeCounter => "struct variant AbilityCost::RemoveCounter"

/-- Costs know all their members. -/
def record (kind : CostKind) : Record Cost := ⟨title kind, false, shape kind⟩

/-- Reads a cost. -/
def read : Reader Cost := tagged "internally tagged enum AbilityCost" record

/-- The written form of what is paid with. -/
def paymentMembers : Payment → List (String × Json)
  | .nectar | .discard | .sacrifice => []
  | .removeCounter counter => [("counter", counter.toJson)]

/-- The written form, the tag first. -/
def toJson (cost : Cost) : Json :=
  .object (("type", wordJson cost.kind) :: paymentMembers cost.payment
    ++ present "value" .ofUInt32 cost.value)

end Cost

end RulesText
