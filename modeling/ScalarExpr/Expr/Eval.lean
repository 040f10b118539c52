import ScalarExpr.Expr
import ScalarExpr.Variables

/-!
# Evaluation

Both operands of a binary operator are evaluated, the left one first, also those of the logical
operators. Of a conditional, only the branch that its condition selects is evaluated. The first
error that is met is the result.

An error is attributed to its operator, except for a comparison, where it is attributed to the right
operand.
-/

namespace ScalarExpr

/-- Why an operator has no result on its operands. -/
inductive EvalError
  | unaryOperand (op : UnaryOp) (found : ValueKind) (offset : Nat)
  | nullOperand (offset : Nat)
  | arithmeticOperands (op : Arithmetic) (left right : ValueKind) (offset : Nat)
  | comparisonOperands (op : Comparison) (left right : ValueKind) (offset : Nat)
  | divisionByZero (offset : Nat)
  deriving DecidableEq, Repr

namespace EvalError

/-- The offset that the error is attributed to. -/
def offset : EvalError → Nat
  | unaryOperand _ _ offset => offset
  | nullOperand offset => offset
  | arithmeticOperands _ _ _ offset => offset
  | comparisonOperands _ _ _ offset => offset
  | divisionByZero offset => offset

/-- The text of the error. -/
def message : EvalError → String
  | unaryOperand op found _ =>
    "Unary " ++ op.symbol ++ " requires numeric operand, got " ++ found.name
  | nullOperand _ => "Operator '+' requires numbers or strings"
  | arithmeticOperands op left right _ =>
    "Numeric operator requires numeric operands, cannot apply " ++ op.symbol ++ " to " ++
      left.name ++ " and " ++ right.name
  | comparisonOperands op left right _ =>
    "Relational operators require numeric operands, cannot compare " ++ left.name ++ " " ++
      op.symbol ++ " " ++ right.name
  | divisionByZero _ => "Division by zero"

end EvalError

/-- The result of a prefix operator at an offset. -/
def UnaryOp.apply (op : UnaryOp) (operand : Value) (offset : Nat) : Except EvalError Value :=
  match op, operand with
  | .not, operand => .ok (.boolean (!operand.isTruthy))
  | .plus, .number n => .ok (.number n)
  | .minus, .number n => .ok (.number n.negate)
  | op, operand => .error (.unaryOperand op operand.kind offset)

/-- The result on two values of which at least one is no number: strings are joined, and the other
operators have none. -/
def Arithmetic.onOthers (op : Arithmetic) (left right : Value) (offset : Nat) :
    Except EvalError Value :=
  match op with
  | .add =>
    if left = .null ∨ right = .null then .error (.nullOperand offset)
    else .ok (.string (left.text ++ right.text))
  | op => .error (.arithmeticOperands op left.kind right.kind offset)

/-- The result of an arithmetic operator at an offset. -/
def Arithmetic.apply (op : Arithmetic) (left right : Value) (offset : Nat) :
    Except EvalError Value :=
  match left.number?, right.number? with
  | some m, some n =>
    match Number.operate? op m n with
    | some result => .ok (.number result)
    | none => .error (.divisionByZero offset)
  | _, _ => op.onOthers left right offset

/-- The result of a comparison, whose errors are attributed to `offset`. -/
def Comparison.apply (op : Comparison) (left right : Value) (offset : Nat) :
    Except EvalError Value :=
  match left.float?, right.float? with
  | some a, some b => .ok (.boolean (op.holds a b))
  | _, _ => .error (.comparisonOperands op left.kind right.kind offset)

/-- The result of a binary operator at an offset, whose right operand is attributed to another. -/
def BinaryOp.apply (op : BinaryOp) (left right : Value) (offset rightOffset : Nat) :
    Except EvalError Value :=
  match op with
  | .arithmetic op => op.apply left right offset
  | .comparison op => op.apply left right rightOffset
  | .equal => .ok (.boolean (left.looselyEqual right))
  | .notEqual => .ok (.boolean (!left.looselyEqual right))
  | .and => .ok (.boolean (left.isTruthy && right.isTruthy))
  | .or => .ok (.boolean (left.isTruthy || right.isTruthy))

/-- The value that an identifier stands for. Without variables each name stands for itself. -/
def identifierValue (vars : Option Variables) (name : String) : Value :=
  match vars with
  | some vars => vars.resolve name
  | none => .string name

/-- The value of an expression under variables, or without any. -/
def Expr.eval (vars : Option Variables) : Expr → Except EvalError Value
  | .number value _ => .ok (.number value)
  | .text value _ => .ok (.string value)
  | .identifier name _ => .ok (identifierValue vars name)
  | .unary op operand pos =>
    match operand.eval vars with
    | .error error => .error error
    | .ok value => op.apply value pos
  | .binary op left right pos =>
    match left.eval vars with
    | .error error => .error error
    | .ok leftValue =>
      match right.eval vars with
      | .error error => .error error
      | .ok rightValue => op.apply leftValue rightValue pos right.pos
  | .conditional condition whenTrue whenFalse =>
    match condition.eval vars with
    | .error error => .error error
    | .ok value => if value.isTruthy then whenTrue.eval vars else whenFalse.eval vars

namespace Expr

/-- Under variables an identifier stands for what they resolve it to. -/
theorem eval_identifier (vars : Variables) (name : String) (pos : Nat) :
    (identifier name pos).eval vars = .ok (vars.resolve name) := rfl

/-- Without variables every name stands for itself, as it does where none is bound. -/
theorem eval_none (e : Expr) : e.eval none = e.eval (∅ : Variables) := by
  induction e with
  | number | text | identifier => rfl
  | unary op operand pos ih => rw [eval, eval, ih]
  | binary op left right pos ihLeft ihRight => rw [eval, eval, ihLeft, ihRight]
  | conditional condition whenTrue whenFalse ih ihTrue ihFalse =>
    rw [eval, eval, ih, ihTrue, ihFalse]

end Expr

end ScalarExpr
