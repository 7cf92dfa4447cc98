/-!
# Sets of code points

A character class of a standard is a list of closed ranges of code points, in ascending order.
Membership walks the list and stops at the first range that starts beyond the code point.
-/

namespace Luuqad.Text

/-- Whether `n` lies in one of the ascending closed ranges. -/
def inRanges : List (Nat × Nat) → Nat → Bool
  | [], _ => false
  | (low, high) :: rest, n =>
    if n < low then false else if n ≤ high then true else inRanges rest n

/-- The ranges are closed, ascending and do not touch. -/
def ascending : List (Nat × Nat) → Bool
  | [] => true
  | [(low, high)] => low ≤ high
  | (low, high) :: (low', high') :: rest =>
    low ≤ high && high + 1 < low' && ascending ((low', high') :: rest)

end Luuqad.Text
