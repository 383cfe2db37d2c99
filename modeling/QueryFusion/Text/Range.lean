/-!
# Ranges of code points

Character classes are listed as closed ranges of code points in ascending order.
-/

namespace QueryFusion.Text

/-- The code point of the character lies in one of the closed ranges. -/
def inRanges (ranges : List (Nat × Nat)) (c : Char) : Bool :=
  ranges.any fun range => range.1 ≤ c.toNat && c.toNat ≤ range.2

end QueryFusion.Text
