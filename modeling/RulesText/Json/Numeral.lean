import RulesText.Json.Fault

/-!
# Numerals

A numeral is an optional minus sign, a whole part without needless zeros, and then an optional
fraction and an optional exponent with at least one digit each. Its value is an integer when it has
neither and fits the 64-bit range; otherwise it is a binary64 number, computed from as many leading
digits as fit 64 bits and a power of ten.
-/

namespace RulesText.Json
open RulesText.Decimal

/-- A numeral as it is written. Without a point the fraction is empty. -/
structure Numeral where
  negative : Bool
  whole : List Nat
  fraction : List Nat
  exponent : Option Int
  deriving DecidableEq, Repr

/-- The value of a decimal digit. -/
def digit (c : Char) : Nat := c.toNat - '0'.toNat

/-- The number with the digits behind those of `value`. -/
def ofDigits (value : Nat) (digits : List Nat) : Nat :=
  digits.foldl (fun n d => 10 * n + d) value

/-! ## Scanning -/

/-- The digits in front of a text, and the rest. -/
def scanDigits (text : List Char) : List Nat × List Char :=
  ((text.takeWhile Char.isDigit).map digit, text.dropWhile Char.isDigit)

/-- Digits of which there must be one. The fault says whether the text ended instead. -/
def scanSomeDigits (text : List Char) : Except Bool (List Nat × List Char) :=
  match scanDigits text with
  | ([], rest) => .error rest.isEmpty
  | (digits, rest) => .ok (digits, rest)

/-- The whole part: a zero, or digits that do not begin with one. -/
def scanWhole : List Char → Except Bool (List Nat × List Char)
  | '0' :: rest => if (rest.head?.any Char.isDigit) then .error false else .ok ([0], rest)
  | text => scanSomeDigits text

/-- The fraction behind a point, if there is a point. -/
def scanFraction : List Char → Except Bool (List Nat × List Char)
  | '.' :: rest => scanSomeDigits rest
  | text => .ok ([], text)

/-- The sign of an exponent: whether it is negative, and the rest. -/
def scanSign : List Char → Bool × List Char
  | '+' :: rest => (false, rest)
  | '-' :: rest => (true, rest)
  | text => (false, text)

/-- The exponent behind its letter, if there is the letter. -/
def scanExponent : List Char → Except Bool (Option Int × List Char)
  | c :: rest =>
    if c = 'e' ∨ c = 'E' then do
      let (negative, unsigned) := scanSign rest
      let (digits, rest) ← scanSomeDigits unsigned
      let magnitude : Int := ofDigits 0 digits
      pure (some (if negative then -magnitude else magnitude), rest)
    else .ok (none, c :: rest)
  | [] => .ok (none, [])

/-- The numeral in front of a text, and the rest. A fault says whether the text ended in it. -/
def scanNumeral (text : List Char) : Except Bool (Numeral × List Char) := do
  let (negative, unsigned) := match text with
    | '-' :: rest => (true, rest)
    | _ => (false, text)
  let (whole, rest) ← scanWhole unsigned
  let (fraction, rest) ← scanFraction rest
  let (exponent, rest) ← scanExponent rest
  pure (⟨negative, whole, fraction, exponent⟩, rest)

/-! ## Value -/

/-- The number with further digits, as long as it fits into 64 bits, and how many were taken. -/
def absorb (value : Nat) : List Nat → Nat × Nat
  | [] => (value, 0)
  | d :: rest =>
    if 10 * value + d < UInt64.size then
      let (grown, taken) := absorb (10 * value + d) rest
      (grown, taken + 1)
    else (value, 0)

/-- A power of ten, rounded; the exponent is at most 308. -/
def tenTo (exponent : Nat) : Binary64 :=
  (Binary64.ofRatio? (Nat.pow 10 exponent) 1).getD .zero

/-- A number times a power of ten, if it is finite. A very small power is multiplied in steps of
`10 ^ -308`, each of which rounds, until nothing is left of the number. -/
def scale? : Nat → Binary64 → Int → Option Binary64
  | 0, x, _ => some x
  | steps + 1, x, exponent =>
    if exponent.natAbs ≤ 308 then
      if 0 ≤ exponent then x.mul? (tenTo exponent.natAbs) else x.div? (tenTo exponent.natAbs)
    else if x.mantissa = 0 then some x
    else if 0 ≤ exponent then none
    else (x.div? (tenTo 308)).bind fun y => scale? steps y (exponent + 308)

/-- The binary64 number of a significand of 64 bits and a power of ten. Two steps leave nothing
of such a significand. -/
def float (negative : Bool) (significand : Nat) (exponent : Int) : Except Fault Number :=
  match (Binary64.ofRatio? significand 1).bind (scale? 3 · exponent) with
  | some magnitude => .ok (.float negative magnitude)
  | none => .error (.malformed .numberOutOfRange)

/-- The number that a numeral stands for. A negative zero and a negative integer beyond the 64-bit
range are binary64 numbers. -/
def Numeral.value (n : Numeral) : Except Fault Number :=
  let (whole, taken) := absorb 0 n.whole
  let dropped := n.whole.length - taken
  match n.fraction, n.exponent with
  | [], none =>
    if dropped = 0 ∧ n.negative = false then .ok (.int whole)
    else if dropped = 0 ∧ 0 < whole ∧ whole ≤ UInt64.size / 2 then .ok (.int (-whole))
    else float n.negative whole dropped
  | fraction, exponent =>
    let (significand, places) := absorb whole fraction
    float n.negative significand (dropped - places + exponent.getD 0)

end RulesText.Json
