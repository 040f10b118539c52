/-!
# Sets of code points

A set of code points is a list of inclusive ranges in increasing order. Membership stops at the
first range that starts above the code point, so the common low code points are found at once.
-/

namespace ScalarExpr.Text

/-- Inclusive ranges of code points, in increasing order. -/
abbrev Ranges := List (Nat × Nat)

/-- Whether a code point lies in one of the ranges. -/
def Ranges.contains : Ranges → Nat → Bool
  | [], _ => false
  | (low, high) :: rest, point =>
    if point < low then false
    else if point ≤ high then true
    else contains rest point

/-- A code point is in the first range or in a later one. -/
theorem Ranges.contains_cons (low high point : Nat) (rest : Ranges) (h : low ≤ point) :
    Ranges.contains ((low, high) :: rest) point = (decide (point ≤ high) || rest.contains point) := by
  have : ¬ point < low := Nat.not_lt.mpr h
  by_cases hp : point ≤ high <;> simp [contains, this, hp]

end ScalarExpr.Text
