/-! # Ranges of code points

A character class is given by the ascending list of its ranges, both ends included.  Membership
stops at the first range that starts beyond the character. -/

namespace DynLisp.Text

/-- Membership in an ascending list of ranges. -/
def inRanges : List (Nat × Nat) → Nat → Bool
  | [], _ => false
  | (low, high) :: rest, n => !(n < low) && (n ≤ high || inRanges rest n)

end DynLisp.Text
