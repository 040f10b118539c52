import ScalarExpr.Number
import ScalarExpr.Token

/-!
# Operators

Prefix and binary operators, their symbols, and the tokens that stand for them. Binary operators
fall into six levels of precedence and all associate to the left.
-/

namespace ScalarExpr

/-- The symbol of an operator on numbers. -/
def Arithmetic.symbol : Arithmetic → String
  | .add => "+"
  | .subtract => "-"
  | .multiply => "*"
  | .divide => "/"
  | .remainder => "%"

/-- Prefix operators. -/
inductive UnaryOp
  | not
  | plus
  | minus
  deriving DecidableEq, Repr

namespace UnaryOp

/-- The symbol of a prefix operator. -/
def symbol : UnaryOp → String
  | not => "!"
  | plus => "+"
  | minus => "-"

/-- The prefix operator that a token of this kind stands for. -/
def ofKind? : TokenKind → Option UnaryOp
  | .not => some not
  | .plus => some plus
  | .minus => some minus
  | _ => none

end UnaryOp

/-- Comparisons by size. -/
inductive Comparison
  | less
  | greater
  | lessEqual
  | greaterEqual
  deriving DecidableEq, Repr

namespace Comparison

/-- The symbol of a comparison. -/
def symbol : Comparison → String
  | less => "<"
  | greater => ">"
  | lessEqual => "<="
  | greaterEqual => ">="

/-- Whether a comparison holds between two doubles; none does if one of them is NaN. -/
def holds : Comparison → Float → Float → Bool
  | less, a, b => decide (a < b)
  | greater, a, b => decide (b < a)
  | lessEqual, a, b => decide (a ≤ b)
  | greaterEqual, a, b => decide (b ≤ a)

end Comparison

/-- Binary operators. -/
inductive BinaryOp
  | arithmetic (op : Arithmetic)
  | comparison (op : Comparison)
  | equal
  | notEqual
  | and
  | or
  deriving DecidableEq, Repr

namespace BinaryOp

/-- The symbol of a binary operator. -/
def symbol : BinaryOp → String
  | arithmetic op => op.symbol
  | comparison op => op.symbol
  | equal => "=="
  | notEqual => "!="
  | and => "&&"
  | or => "||"

/-- The binary operator that a token of this kind stands for. -/
def ofKind? : TokenKind → Option BinaryOp
  | .plus => some (arithmetic .add)
  | .minus => some (arithmetic .subtract)
  | .star => some (arithmetic .multiply)
  | .slash => some (arithmetic .divide)
  | .percent => some (arithmetic .remainder)
  | .less => some (comparison .less)
  | .greater => some (comparison .greater)
  | .lessEqual => some (comparison .lessEqual)
  | .greaterEqual => some (comparison .greaterEqual)
  | .equal => some equal
  | .notEqual => some notEqual
  | .and => some and
  | .or => some or
  | _ => none

/-- The precedence of an operator; a greater one binds tighter. -/
def precedence : BinaryOp → Nat
  | or => 0
  | and => 1
  | equal | notEqual => 2
  | comparison _ => 3
  | arithmetic .add | arithmetic .subtract => 4
  | arithmetic .multiply | arithmetic .divide | arithmetic .remainder => 5

/-- The number of levels of precedence. -/
def levels : Nat := 6

/-- Every operator is on one of the levels. -/
theorem precedence_lt_levels (op : BinaryOp) : op.precedence < levels := by
  cases op with
  | arithmetic op => cases op <;> decide
  | comparison op => cases op <;> decide
  | _ => decide

end BinaryOp

end ScalarExpr
