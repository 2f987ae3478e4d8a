/-!
# Binary64 magnitudes

The finite nonnegative numbers of the binary64 format, with rounding to the nearest of them. A tie
goes to the even mantissa, and a ratio beyond the largest finite number has no rounding.
-/

namespace RulesText.Decimal

/-- The number `mantissa * 2 ^ exponent`. In a rounded number the mantissa has at most 53 bits, and
exactly 53 unless the exponent is the least one. -/
structure Binary64 where
  mantissa : Nat
  exponent : Int
  deriving DecidableEq, Repr

namespace Binary64

/-- The exponent of the subnormal numbers. -/
def minExponent : Int := -1074

/-- The exponent of the largest finite numbers. -/
def maxExponent : Int := 971

/-- The least mantissa of 53 bits, where the numbers below begin to lie closer together. -/
def leastNormal : Nat := 1 <<< 52

/-- The number zero. -/
def zero : Binary64 := ⟨0, minExponent⟩

/-- The integer nearest to a ratio, the even one of two. -/
def roundEven (num den : Nat) : Nat :=
  let quotient := num / den
  let twice := 2 * (num % den)
  if twice < den then quotient
  else if twice = den then quotient + quotient % 2
  else quotient + 1

/-- The exponent at which a positive ratio is rounded: its mantissa then has 53 bits, or the
exponent is the least one. -/
def roundingExponent (num den : Nat) : Int :=
  let estimate := (num.log2 : Int) - den.log2 - 52
  let fitted :=
    if num <<< (-(estimate + 52)).toNat < den <<< (estimate + 52).toNat then estimate - 1
    else estimate
  max fitted minExponent

/-- The number nearest to a ratio, if it is finite. -/
def ofRatio? (num den : Nat) : Option Binary64 :=
  if num = 0 then some zero
  else
    let exponent := roundingExponent num den
    let mantissa := roundEven (num <<< (-exponent).toNat) (den <<< exponent.toNat)
    let rounded : Binary64 :=
      if mantissa = 2 * leastNormal then ⟨leastNormal, exponent + 1⟩ else ⟨mantissa, exponent⟩
    if rounded.exponent ≤ maxExponent then some rounded else none

/-- The rounded product, if it is finite. -/
def mul? (x y : Binary64) : Option Binary64 :=
  let exponent := x.exponent + y.exponent
  ofRatio? ((x.mantissa * y.mantissa) <<< exponent.toNat) (1 <<< (-exponent).toNat)

/-- The rounded quotient, if it is finite. -/
def div? (x y : Binary64) : Option Binary64 :=
  let exponent := x.exponent - y.exponent
  ofRatio? (x.mantissa <<< exponent.toNat) (y.mantissa <<< (-exponent).toNat)

end Binary64

end RulesText.Decimal
