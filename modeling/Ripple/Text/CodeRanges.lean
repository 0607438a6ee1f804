/-!
# Classes of characters as ranges of code points

A property of characters that a standard lists (blank, digit, letter, mark) is held as the
ascending list of its closed ranges of code points. Looking a character up walks the list and
stops at the first range that begins above it, so ASCII is found in a few steps.
-/

namespace Ripple.Text

/-- Closed ranges of code points, ascending and apart from each other. -/
abbrev CodeRanges := List (Nat × Nat)

/-- The code point lies in one of the ranges. -/
def CodeRanges.has : CodeRanges → Nat → Bool
  | [], _ => false
  | (low, high) :: rest, n => if n < low then false else n ≤ high || CodeRanges.has rest n

end Ripple.Text
