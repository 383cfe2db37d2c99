import QueryFusion.Decimal.Shortest

/-!
# Layouts of decimal numbers

How the shortest decimal of a double is written. A layout decides for which numbers an exponent is
written and whether a whole number keeps a fraction.
-/

namespace QueryFusion.Decimal

/-- The decisions of one written form. -/
structure Layout where
  /-- Numbers whose first digit stands at this power of ten are written with an exponent. -/
  usesExponent : Int → Bool
  /-- A whole number is written with the fraction zero. -/
  keepsFraction : Bool

/-- Values are shown without exponents, whole numbers without a fraction. -/
def Layout.plain : Layout where
  usesExponent := fun _ => false
  keepsFraction := false

/-- Literals in source text always show that they are doubles: by a fraction, or by an exponent from
10 ^ 16 up and below 10 ^ -4. -/
def Layout.literal : Layout where
  usesExponent := fun order => order ≥ 16 || order < -4
  keepsFraction := true

/-- The digits in their places, filled up with zeros down to the point. -/
def positional (layout : Layout) (digits : List Char) (exponent : Int) : List Char :=
  if 0 ≤ exponent then
    digits ++ List.replicate exponent.toNat '0' ++ (if layout.keepsFraction then ['.', '0'] else [])
  else
    let places := (-exponent).toNat
    if places < digits.length then
      digits.take (digits.length - places) ++ ['.'] ++ digits.drop (digits.length - places)
    else
      ['0', '.'] ++ List.replicate (places - digits.length) '0' ++ digits

/-- One digit before the point, then the power of ten. -/
def scientific (digits : List Char) (order : Int) : List Char :=
  let mantissa :=
    match digits with
    | [] => []
    | [digit] => [digit]
    | digit :: rest => digit :: '.' :: rest
  mantissa ++ ['e'] ++ (toString order).toList

/-- The text of a double in a layout. -/
def Layout.render (layout : Layout) (number : Double) : String :=
  if number.isNaN then "NaN"
  else
    let sign := if number.isNegative then ['-'] else []
    if !number.isFinite then String.ofList (sign ++ ['i', 'n', 'f'])
    else
      let decimal := shortest number
      let digits := Nat.toDigits 10 decimal.digits
      let order := decimal.exponent + digits.length - 1
      String.ofList (sign ++
        (if layout.usesExponent order then scientific digits order
         else positional layout digits decimal.exponent))

end QueryFusion.Decimal
