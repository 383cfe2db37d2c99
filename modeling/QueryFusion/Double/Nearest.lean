import QueryFusion.Double

/-!
# The nearest double

A rational number rounds to the double nearest to it, and of two equally near ones to the one with
an even significand. Numbers too large for the format round to infinity. Integers, decimal texts
and remainders all reach their doubles through this one rule.
-/

namespace QueryFusion.Double

/-- The exponent `e` with `2 ^ e ≤ numerator / denominator < 2 ^ (e + 1)`. -/
def binaryOrder (numerator denominator : Nat) : Int :=
  let estimate : Int := (Nat.log2 numerator : Int) - Nat.log2 denominator
  let reached : Bool :=
    if 0 ≤ estimate then denominator * twoTo estimate.toNat ≤ numerator
    else denominator ≤ numerator * twoTo (-estimate).toNat
  if reached then estimate else estimate - 1

/-- The integer nearest to a quotient, the even one of two. -/
def roundQuotient (numerator denominator : Nat) : Nat :=
  let quotient := numerator / denominator
  let twice := 2 * (numerator % denominator)
  if denominator < twice || (twice == denominator && quotient % 2 == 1) then quotient + 1
  else quotient

/-- The double nearest to `numerator / denominator`, with the given sign. -/
def ofRatio (negative : Bool) (numerator denominator : Nat) : Double :=
  if numerator = 0 then ofMagnitude negative 0
  else
    let scale : Int := max (binaryOrder numerator denominator - 52) (-1074)
    let significand :=
      if 0 ≤ scale then roundQuotient numerator (denominator * twoTo scale.toNat)
      else roundQuotient (numerator * twoTo (-scale).toNat) denominator
    ofMagnitude negative (min (significand + (scale + 1074).toNat * twoTo 52) (2047 * twoTo 52))

/-- The double nearest to an integer. -/
def ofInt (number : Int) : Double :=
  ofRatio (number < 0) number.natAbs 1

/-- Remainder of a division that truncates, with the sign of the dividend. -/
def rem (dividend divisor : Double) : Double :=
  if dividend.isNaN || divisor.isNaN || !dividend.isFinite || divisor.magnitude == 0 then nan
  else if !divisor.isFinite then dividend
  else
    let scale := min dividend.scale divisor.scale
    let left := dividend.significand * twoTo (dividend.scale - scale).toNat
    let right := divisor.significand * twoTo (divisor.scale - scale).toNat
    let rest := left % right
    if 0 ≤ scale then ofRatio dividend.isNegative (rest * twoTo scale.toNat) 1
    else ofRatio dividend.isNegative rest (twoTo (-scale).toNat)

end QueryFusion.Double
