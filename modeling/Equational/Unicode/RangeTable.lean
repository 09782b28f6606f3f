/-!
# Tables of code point ranges

A property of characters is stored as its maximal ranges of code points, in increasing order.
Membership reads the table from the left and stops at the first range that is not wholly below the
code point.
-/

namespace Equational.Unicode

/-- Inclusive ranges, from the lowest to the highest. -/
abbrev RangeTable := List (Nat × Nat)

namespace RangeTable

def covers : RangeTable → Nat → Bool
  | [], _ => false
  | (low, high) :: rest, code =>
    if code < low then false
    else if code ≤ high then true
    else covers rest code

end RangeTable

end Equational.Unicode
