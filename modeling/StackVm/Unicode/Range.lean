/-!
# Runs of code points

A property of characters is given as a table: the runs of code points that have it, each by its
first and last member, in ascending order and apart from one another.
-/

namespace StackVm.Unicode

/-- Runs of code points, ends included, in ascending order. -/
abbrev RangeTable := List (Nat × Nat)

/-- Whether a code point lies in one of the runs. The search ends at the first run that starts
beyond it, as no later one can hold it. -/
def RangeTable.contains : RangeTable → Nat → Bool
  | [], _ => false
  | (first, last) :: rest, n =>
    if n < first then false else decide (n ≤ last) || RangeTable.contains rest n

end StackVm.Unicode
