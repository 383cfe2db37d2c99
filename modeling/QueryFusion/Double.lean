/-!
# Double precision numbers

A double is its 64-bit encoding: a sign bit, eleven bits of exponent and 52 bits of fraction.
Classification, order, truncation and remainder are computed exactly from the encoding; the
rounded operations are those of the machine.
-/

namespace QueryFusion

/-- A double precision number, given by its encoding. -/
structure Double where
  /-- Sign, exponent and fraction, from the highest bit down. -/
  bits : UInt64
  deriving DecidableEq, Inhabited

namespace Double

/-- A power of two. -/
def twoTo (exponent : Nat) : Nat :=
  Nat.pow 2 exponent

/-- The sign bit is set; true also of the negative zero. -/
def isNegative (number : Double) : Bool :=
  number.bits.toNat ≥ twoTo 63

/-- The encoding without its sign bit; it grows with the absolute value. -/
def magnitude (number : Double) : Nat :=
  number.bits.toNat % twoTo 63

/-- The biased exponent. -/
def exponentField (number : Double) : Nat :=
  number.magnitude / twoTo 52

/-- The fraction below the leading bit. -/
def fraction (number : Double) : Nat :=
  number.magnitude % twoTo 52

/-- The encoding stands for no number. -/
def isNaN (number : Double) : Bool :=
  number.exponentField == 2047 && number.fraction != 0

/-- Neither infinite nor without a value. -/
def isFinite (number : Double) : Bool :=
  number.exponentField != 2047

/-- The integer `s` with absolute value `s * 2 ^ scale`. -/
def significand (number : Double) : Nat :=
  if number.exponentField = 0 then number.fraction else number.fraction + twoTo 52

/-- The power of two that the significand counts. -/
def scale (number : Double) : Int :=
  (max number.exponentField 1 : Nat) - 1075

/-- The encoding with a given sign and magnitude. -/
def ofMagnitude (negative : Bool) (magnitude : Nat) : Double :=
  ⟨UInt64.ofNat (if negative then magnitude + twoTo 63 else magnitude)⟩

/-- The encoding that stands for no number. -/
def nan : Double :=
  ⟨0x7ff8000000000000⟩

/-- Infinity with a given sign. -/
def infinity (negative : Bool) : Double :=
  ofMagnitude negative (2047 * twoTo 52)

/-! ## Order -/

/-- Position on the number line: both zeros stand at zero. -/
def orderKey (number : Double) : Int :=
  if number.isNegative then -(number.magnitude : Int) else number.magnitude

/-- Numeric order; there is none with an encoding that stands for no number. -/
def order (left right : Double) : Option Ordering :=
  if left.isNaN || right.isNaN then none else some (compare left.orderKey right.orderKey)

/-- Numeric equality: the zeros are equal, and no number equals the one without a value. -/
def equal (left right : Double) : Bool :=
  left.order right == some .eq

/-- A number equals itself unless it is the one without a value. -/
theorem order_self {number : Double} (valued : number.isNaN = false) :
    number.order number = some .eq := by
  simp [order, valued, compare, compareOfLessAndEq]

/-- Numeric equality does not depend on the side. -/
theorem equal_comm (left right : Double) : left.equal right = right.equal left := by
  simp only [equal, order, Bool.or_comm left.isNaN]
  split
  · rfl
  · rw [Bool.eq_iff_iff, beq_iff_eq, beq_iff_eq, Option.some.injEq, Option.some.injEq,
      Std.compare_eq_iff_eq, Std.compare_eq_iff_eq]
    exact eq_comm

/-! ## Machine operations -/

/-- The machine number with this encoding. -/
def toFloat (number : Double) : Float :=
  Float.ofBits number.bits

/-- The encoding of a machine number. -/
def ofFloat (number : Float) : Double :=
  ⟨number.toBits⟩

/-- Sum, rounded to nearest. -/
def add (left right : Double) : Double :=
  ofFloat (left.toFloat + right.toFloat)

/-- Difference, rounded to nearest. -/
def sub (left right : Double) : Double :=
  ofFloat (left.toFloat - right.toFloat)

/-- Product, rounded to nearest. -/
def mul (left right : Double) : Double :=
  ofFloat (left.toFloat * right.toFloat)

/-- Quotient, rounded to nearest. -/
def div (left right : Double) : Double :=
  ofFloat (left.toFloat / right.toFloat)

/-! ## Exact operations -/

/-- The number with the other sign. -/
def neg (number : Double) : Double :=
  ofMagnitude (!number.isNegative) number.magnitude

/-- The number without its sign. -/
def abs (number : Double) : Double :=
  ofMagnitude false number.magnitude

/-- The integer part toward zero, of a finite number. -/
def truncate? (number : Double) : Option Int :=
  if number.isFinite then
    let whole : Nat :=
      if 0 ≤ number.scale then number.significand * twoTo number.scale.toNat
      else number.significand / twoTo (-number.scale).toNat
    some (if number.isNegative then -(whole : Int) else whole)
  else none

end Double

end QueryFusion
