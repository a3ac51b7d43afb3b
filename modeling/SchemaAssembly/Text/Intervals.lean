/-!
# Intervals of code points

Character classes beyond ASCII are tables of closed intervals in ascending order. Membership stops
at the first interval that starts beyond the code point, so a small code point costs one comparison.
-/

namespace SchemaAssembly.Text

/-- Closed intervals of code points, in ascending order and apart from each other. -/
abbrev Intervals := List (Nat × Nat)

/-- Whether a code point lies in one of the intervals. -/
def Intervals.covers : Intervals → Nat → Bool
  | [], _ => false
  | (first, last) :: rest, code =>
    if code < first then false
    else if code ≤ last then true
    else Intervals.covers rest code

end SchemaAssembly.Text
