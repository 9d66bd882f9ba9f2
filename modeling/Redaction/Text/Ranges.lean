/-!
# Ranges of numbers

A property of characters is a list of ranges of code points, both ends included.
-/

namespace Redaction.Text

/-- The number lies in one of the ranges. -/
def inRanges (ranges : List (Nat × Nat)) (n : Nat) : Bool :=
  ranges.any fun (lo, hi) => lo ≤ n && n ≤ hi

end Redaction.Text
