import QueryFusion.Double.Nearest

/-!
# Decimal digits

Values of digit strings, and the double that a decimal number rounds to.
-/

namespace QueryFusion.Decimal

/-- A power of ten. -/
def tenTo (exponent : Nat) : Nat :=
  Nat.pow 10 exponent

/-- Value of one decimal digit. -/
def digitValue (digit : Char) : Nat :=
  digit.toNat - '0'.toNat

/-- Value of a string of decimal digits. -/
def valueOf (digits : List Char) : Nat :=
  digits.foldl (fun value digit => 10 * value + digitValue digit) 0

/-- A further digit counts ten times what stands before it, and itself. -/
theorem valueOf_append (digits : List Char) (digit : Char) :
    valueOf (digits ++ [digit]) = 10 * valueOf digits + digitValue digit := by
  simp [valueOf]

/-- Number of decimal digits of a number; zero has one. -/
def digitCount (number : Nat) : Nat :=
  (Nat.toDigits 10 number).length

/-- The double nearest to `digits * 10 ^ exponent`. Exponents far outside the format are decided
by the position of the first digit alone. -/
def toDouble (negative : Bool) (digits : Nat) (exponent : Int) : Double :=
  if digits = 0 then Double.ofMagnitude negative 0
  else
    let position : Int := digitCount digits + exponent
    if 310 < position then Double.infinity negative
    else if position < -330 then Double.ofMagnitude negative 0
    else if 0 ≤ exponent then Double.ofRatio negative (digits * tenTo exponent.toNat) 1
    else Double.ofRatio negative digits (tenTo (-exponent).toNat)

end QueryFusion.Decimal
