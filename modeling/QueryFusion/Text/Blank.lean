import QueryFusion.Text.Range

/-!
# Blanks and control characters

The two classes that the source language treats apart: blanks separate tokens, and control
characters are numbered inside a quoted text.
-/

namespace QueryFusion.Text

/-- Ranges of code points with the White_Space property. -/
def blankRanges : List (Nat × Nat) :=
  [(0x9, 0xd), (0x20, 0x20), (0x85, 0x85), (0xa0, 0xa0), (0x1680, 0x1680), (0x2000, 0x200a),
   (0x2028, 0x2029), (0x202f, 0x202f), (0x205f, 0x205f), (0x3000, 0x3000)]

/-- A character that separates tokens. -/
def isBlank (c : Char) : Bool :=
  inRanges blankRanges c

/-- A control character: the first 32 code points, and 0x7f up to 0x9f. -/
def isControl (c : Char) : Bool :=
  c.toNat < 0x20 || (0x7f ≤ c.toNat && c.toNat ≤ 0x9f)

end QueryFusion.Text
