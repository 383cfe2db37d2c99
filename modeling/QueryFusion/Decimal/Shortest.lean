import QueryFusion.Decimal.Digits

/-!
# The shortest decimal of a double

Every finite double has an interval of reals that round to it; the ends belong to the interval when
the significand is even. The shortest decimal is the one with the fewest digits inside that
interval, and of several the one nearest to the double. For each number of digits only the two grid
points around the double need to be looked at.
-/

namespace QueryFusion.Decimal

open Double (twoTo)

/-- The number `digits * 10 ^ exponent`. -/
structure Scaled where
  digits : Nat
  exponent : Int
  deriving DecidableEq, Inhabited

/-- A quarter of the unit of the last significand bit counts one: the double itself, and the ends
of the interval of reals that round to it, all times `2 ^ (scale - 2)`. -/
structure Interval where
  low : Nat
  value : Nat
  high : Nat
  scale : Int
  closed : Bool

/-- The rounding interval of a positive finite double. Below a power of two the neighbour is only
half as far away. -/
def Interval.of (number : Double) : Interval :=
  let significand := number.significand
  let narrow := number.fraction = 0 ∧ 1 < number.exponentField
  { low := 4 * significand - (if narrow then 1 else 2)
    value := 4 * significand
    high := 4 * significand + 2
    scale := number.scale - 2
    closed := significand % 2 == 0 }

/-- The least `p` with the value below `10 ^ p`. -/
def Interval.decimalOrder (interval : Interval) : Int :=
  let enlarged := interval.value * tenTo 400
  let whole :=
    if 0 ≤ interval.scale then enlarged * twoTo interval.scale.toNat
    else enlarged / twoTo (-interval.scale).toNat
  digitCount whole - 400

/-- The number of decimal `digits` that is nearest to the value and rounds to it, if there is one. A
tie between two goes up. -/
def Interval.nearest? (interval : Interval) (exponent : Int) : Option Nat :=
  let gridUnit := tenTo exponent.toNat * twoTo (-interval.scale).toNat
  let valueUnit := tenTo (-exponent).toNat * twoTo interval.scale.toNat
  let low := interval.low * valueUnit
  let value := interval.value * valueUnit
  let high := interval.high * valueUnit
  let inside (point : Nat) : Bool :=
    if interval.closed then low ≤ point * gridUnit && point * gridUnit ≤ high
    else low < point * gridUnit && point * gridUnit < high
  let below := value / gridUnit
  let above := below + 1
  match inside below, inside above with
  | true, true =>
    if value - below * gridUnit < above * gridUnit - value then some below else some above
  | true, false => some below
  | false, true => some above
  | false, false => none

/-- The same number without zeros at the end of its digits. -/
def Scaled.trim (number : Scaled) : Nat → Scaled
  | 0 => number
  | fuel + 1 =>
    if number.digits % 10 = 0 ∧ number.digits ≠ 0 then
      Scaled.trim ⟨number.digits / 10, number.exponent + 1⟩ fuel
    else number

/-- Tries one digit after another; seventeen always suffice. -/
def Interval.shortestFrom (interval : Interval) (order : Int) (count : Nat) : Nat → Scaled
  | 0 => ⟨0, 0⟩
  | fuel + 1 =>
    let exponent := order - count
    match interval.nearest? exponent with
    | some digits => Scaled.trim ⟨digits, exponent⟩ 20
    | none => interval.shortestFrom order (count + 1) fuel

/-- The shortest decimal of the absolute value of a finite double. -/
def shortest (number : Double) : Scaled :=
  if number.magnitude = 0 then ⟨0, 0⟩
  else
    let interval := Interval.of number
    interval.shortestFrom interval.decimalOrder 1 17

end QueryFusion.Decimal
