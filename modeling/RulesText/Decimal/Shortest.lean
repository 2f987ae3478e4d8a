import RulesText.Decimal.Binary64

/-!
# The shortest decimal that reads back

The decimal written for a binary64 number is taken from the coarsest decimal grid that has a point
in the interval of reals rounding to the number. Of two such points the nearer is taken, and of
two equally near the even one.
-/

namespace RulesText.Decimal

/-- The decimal number `digits * 10 ^ exponent`. -/
structure Scientific where
  digits : Nat
  exponent : Int
  deriving DecidableEq, Repr

namespace Binary64

/-- Whether the numbers below lie half as close together as those above. -/
def atGap (x : Binary64) : Bool :=
  x.mantissa == leastNormal && minExponent < x.exponent

/-- The point of the grid of multiples of `10 ^ exponent` that is written for `x`, if the grid has
a point that rounds to `x`. All lengths are counted in quarters of the last place of `x`. -/
def gridPoint? (x : Binary64) (exponent : Int) : Option Scientific :=
  let step := Nat.pow 10 exponent.toNat <<< (2 - x.exponent).toNat
  let quarter := Nat.pow 10 (-exponent).toNat <<< (x.exponent - 2).toNat
  let value := 4 * x.mantissa * quarter
  let low := (4 * x.mantissa - (if x.atGap then 1 else 2)) * quarter
  let high := (4 * x.mantissa + 2) * quarter
  let readsBack (point : Nat) : Bool :=
    if x.mantissa % 2 = 0 then low ≤ point * step && point * step ≤ high
    else low < point * step && point * step < high
  let below := value / step
  let above := below + 1
  let nearest :=
    if value - below * step < above * step - value then below
    else if value - below * step = above * step - value then below + below % 2
    else above
  if readsBack below && readsBack above then some ⟨nearest, exponent⟩
  else if readsBack below then some ⟨below, exponent⟩
  else if readsBack above then some ⟨above, exponent⟩
  else none

/-- The shortest decimal that reads back as `x`; the grids run from `10 ^ 309` to `10 ^ -324`. -/
def shortest (x : Binary64) : Scientific :=
  if x.mantissa = 0 then ⟨0, 0⟩
  else ((List.range 634).findSome? fun (i : Nat) => x.gridPoint? (309 - i)).getD ⟨0, 0⟩

end Binary64

/-- The text of a decimal: positional from `0.00001` up to sixteen digits before the point, and
with a signed exponent beyond. There is always a digit on both sides of a point. -/
def Scientific.text (d : Scientific) : String :=
  let digits := Nat.toDigits 10 d.digits
  let before : Int := digits.length + d.exponent
  if 0 ≤ d.exponent ∧ before ≤ 16 then
    String.ofList (digits ++ List.replicate d.exponent.toNat '0') ++ ".0"
  else if 0 < before ∧ before ≤ 16 then
    String.ofList (digits.take before.toNat) ++ "." ++ String.ofList (digits.drop before.toNat)
  else if -5 < before ∧ before ≤ 0 then
    "0." ++ String.ofList (List.replicate (-before).toNat '0' ++ digits)
  else
    let fraction := if digits.length = 1 then "" else "." ++ String.ofList (digits.drop 1)
    let sign := if before - 1 < 0 then "-" else "+"
    String.ofList (digits.take 1) ++ fraction ++ "e" ++ sign ++ toString (before - 1).natAbs

end RulesText.Decimal
