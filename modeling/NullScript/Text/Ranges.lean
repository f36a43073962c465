/-!
# NullScript — character classes as ranges

A class of characters is a list of closed ranges of code points in increasing order.
-/

namespace NullScript

/-- Does one of the ranges hold the character's code point? The search ends at the first range
that lies above it. -/
def inRanges : List (Nat × Nat) → Char → Bool
  | [], _ => false
  | (low, high) :: ranges, c =>
    if c.toNat < low then false else c.toNat ≤ high || inRanges ranges c

end NullScript
