/-!
# Sets of code points

A set of code points by its bounds: ascending numbers at which membership changes. The set begins
at those with an even index and ends before those with an odd one.
-/

namespace TrainingLoop.CodePoints

/-- The set with the given bounds holds a code point: it lies behind an odd number of bounds. -/
def covers (bounds : Array Nat) (code : Nat) : Bool :=
  (bounds.filter (· ≤ code)).size % 2 == 1

end TrainingLoop.CodePoints
