import ScalarExpr.Proofs.Expr.FirstFault

/-!
# Chains of sums

A chain of plus signs nests to the left, so that every sign adds one more value to the sum before it.
As long as there are only numbers the sum is one. The first other value makes it a string, and from
there on every value adds its text, also where it is a number. A string with nothing but booleans in
it is no exception, and neither is a sum of integers that has become a double.

Only null is refused, by the first sign that stands before or behind it. The sum of the signs before
is never null itself.
-/

namespace ScalarExpr

namespace Arithmetic

variable {a b : Value}

end Arithmetic

section AddAll

variable {a : Value} {entries before after : List (Nat × Value)}

end AddAll

/-- A name, where it stands, and the value that it is bound to. -/
structure BoundName where
  name : String
  pos : Nat
  value : Value

/-- The name as an expression. -/
def BoundName.expr (bound : BoundName) : Expr := .identifier bound.name bound.pos

namespace Expr

section Chain

variable {vars : Variables} {first : BoundName} {rest : List (Nat × BoundName)}

end Chain

end Expr

end ScalarExpr
