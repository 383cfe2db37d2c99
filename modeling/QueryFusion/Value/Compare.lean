import QueryFusion.Value.Arithmetic

/-!
# Comparing values

Two values of one scalar type compare by their order, texts by code points. Objects are only equal
or unequal; an object always equals itself.
-/

namespace QueryFusion

/-- Order of two values of one scalar type: `none` for types without an order or for two types, and
`some none` where a double stands for no number. -/
def Value.order? : Value → Value → Option (Option Ordering)
  | .boolean left, .boolean right => some (some (compare left.toNat right.toNat))
  | .int left, .int right => some (some (compare left.toInt right.toInt))
  | .bigInt left, .bigInt right => some (some (compare left.toInt right.toInt))
  | .double left, .double right => some (left.order right)
  | .varchar left, .varchar right => some (some (compare left right))
  | _, _ => none

/-- Compares two values of the same type. -/
def Comparison.apply (comparison : Comparison) (left right : Value) : Except Error Bool :=
  match left.order? right with
  | some order => .ok (comparison.holds order)
  | none =>
    match left, right with
    | .object leftIdentity _ _, .object rightIdentity _ _ =>
      if comparison.isEquality then
        let equal := leftIdentity == rightIdentity || left.same right
        .ok (equal == (comparison == .equal))
      else .error (operandError comparison.symbol left right)
    | _, _ => .error (operandError comparison.symbol left right)

end QueryFusion
