import ScalarExpr.Operator

/-!
# Expression trees

Every node but a conditional carries the offset of its token, to which errors are attributed. A
conditional has no token of its own and stands where its condition does.

The height of a tree is found with an explicit list of subtrees still to visit, so that it can be
taken of a tree of any depth.
-/

namespace ScalarExpr

/-- The tree of an expression. -/
inductive Expr
  | number (value : Number) (pos : Nat)
  | text (value : String) (pos : Nat)
  | identifier (name : String) (pos : Nat)
  | unary (op : UnaryOp) (operand : Expr) (pos : Nat)
  | binary (op : BinaryOp) (left right : Expr) (pos : Nat)
  | conditional (condition whenTrue whenFalse : Expr)
  deriving DecidableEq

namespace Expr

/-- The offset that an expression is attributed to. -/
def pos : Expr → Nat
  | number _ pos => pos
  | text _ pos => pos
  | identifier _ pos => pos
  | unary _ _ pos => pos
  | binary _ _ _ pos => pos
  | conditional condition _ _ => condition.pos

/-- The trees right below the root. -/
def children : Expr → List Expr
  | number .. | text .. | identifier .. => []
  | unary _ operand _ => [operand]
  | binary _ left right _ => [left, right]
  | conditional condition whenTrue whenFalse => [condition, whenTrue, whenFalse]

/-- The number of nodes. -/
def size : Expr → Nat
  | number .. | text .. | identifier .. => 1
  | unary _ operand _ => operand.size + 1
  | binary _ left right _ => left.size + right.size + 1
  | conditional condition whenTrue whenFalse =>
    condition.size + whenTrue.size + whenFalse.size + 1

/-- The number of nodes of trees together. -/
def total : List Expr → Nat
  | [] => 0
  | e :: rest => e.size + total rest

/-- The numbers of nodes of two lists of trees add up. -/
theorem total_append (first second : List Expr) :
    total (first ++ second) = total first + total second := by
  induction first with
  | nil => simp [total]
  | cons e rest ih => simp [total, ih, Nat.add_assoc]

/-- A tree has one node more than the trees below its root together. -/
theorem size_eq_children (e : Expr) : e.size = total e.children + 1 := by
  cases e <;> simp [size, children, total, Nat.add_assoc]

/-- The greatest depth met from a list of subtrees with their depths, and this depth. -/
def deepest (height : Nat) : List (Expr × Nat) → Nat
  | [] => height
  | (e, depth) :: pending =>
    deepest (max height depth) (e.children.map (·, depth + 1) ++ pending)
termination_by pending => total (pending.map Prod.fst)
decreasing_by
  have := size_eq_children e
  simp [total, total_append, Function.comp_def]
  omega

/-- The number of nodes on the longest path from the root to a leaf. -/
def height (e : Expr) : Nat := deepest 0 [(e, 1)]

/-- The longest path from the root to a leaf, by recursion on the tree. -/
def longestPath : Expr → Nat
  | number .. | text .. | identifier .. => 1
  | unary _ operand _ => operand.longestPath + 1
  | binary _ left right _ => max left.longestPath right.longestPath + 1
  | conditional condition whenTrue whenFalse =>
    max condition.longestPath (max whenTrue.longestPath whenFalse.longestPath) + 1

end Expr

end ScalarExpr
