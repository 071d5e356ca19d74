/-!
# Ranges of code points — tables of character classes

A table lists its ranges in ascending order, so a look-up can stop at the first range that begins
behind the code point.
-/

namespace NameResolution.Text

/-- Whether `n` is in one of the ranges, each given by both ends. -/
def inRanges (n : Nat) : List (Nat × Nat) → Bool
  | [] => false
  | (lo, hi) :: rest => lo ≤ n && (n ≤ hi || inRanges n rest)

end NameResolution.Text
