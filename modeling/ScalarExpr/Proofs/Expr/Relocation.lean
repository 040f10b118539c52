import ScalarExpr.Expr.Eval
import ScalarExpr.Proofs.Expr.Height

/-!
# Moving a tree

A tree whose offsets are moved by any function, whether or not it keeps them apart, is as high as
before, and evaluates to the same value or to the same error at the moved offset. For an evaluation
does nothing with offsets but attribute errors to them.
-/

namespace ScalarExpr

namespace Expr

/-- The tree with every offset moved. -/
def relocate (f : Nat → Nat) : Expr → Expr
  | number value pos => number value (f pos)
  | text value pos => text value (f pos)
  | identifier name pos => identifier name (f pos)
  | unary op operand pos => unary op (operand.relocate f) (f pos)
  | binary op left right pos => binary op (left.relocate f) (right.relocate f) (f pos)
  | conditional condition whenTrue whenFalse =>
    conditional (condition.relocate f) (whenTrue.relocate f) (whenFalse.relocate f)

variable (f : Nat → Nat) (e : Expr)

/-- A tree that is moved is attributed to the moved offset. -/
@[simp] theorem pos_relocate : (e.relocate f).pos = f e.pos := by
  induction e with
  | conditional condition whenTrue whenFalse ih _ _ => exact ih
  | _ => rfl

/-- A tree that is moved is as high as before. -/
@[simp] theorem height_relocate : (e.relocate f).height = e.height := by
  rw [height_eq_longestPath, height_eq_longestPath]
  induction e with
  | number | text | identifier => rfl
  | unary op operand pos ih => simp only [relocate, longestPath, ih]
  | binary op left right pos ihLeft ihRight => simp only [relocate, longestPath, ihLeft, ihRight]
  | conditional condition whenTrue whenFalse ih ihTrue ihFalse =>
    simp only [relocate, longestPath, ih, ihTrue, ihFalse]

end Expr

namespace EvalError

/-- The error with its offset moved. -/
def relocate (f : Nat → Nat) : EvalError → EvalError
  | unaryOperand op found offset => unaryOperand op found (f offset)
  | nullOperand offset => nullOperand (f offset)
  | arithmeticOperands op left right offset => arithmeticOperands op left right (f offset)
  | comparisonOperands op left right offset => comparisonOperands op left right (f offset)
  | divisionByZero offset => divisionByZero (f offset)

variable (f : Nat → Nat) (error : EvalError)

/-- An error that is moved is attributed to the moved offset. -/
@[simp] theorem offset_relocate : (error.relocate f).offset = f error.offset := by
  cases error <;> rfl

/-- The message of an error does not depend on where it is. -/
@[simp] theorem message_relocate : (error.relocate f).message = error.message := by
  cases error <;> rfl

end EvalError

section Apply

variable (f : Nat → Nat) (left right : Value) (offset : Nat)

/-- A prefix operator does nothing with its offset but attribute an error to it. -/
theorem UnaryOp.apply_relocate (op : UnaryOp) (operand : Value) :
    op.apply operand (f offset) = (op.apply operand offset).mapError (EvalError.relocate f) := by
  cases op <;> cases operand <;> rfl

/-- An arithmetic operator does nothing with its offset but attribute an error to it. -/
theorem Arithmetic.apply_relocate (op : Arithmetic) :
    op.apply left right (f offset) =
      (op.apply left right offset).mapError (EvalError.relocate f) := by
  have hothers : op.onOthers left right (f offset) =
      (op.onOthers left right offset).mapError (EvalError.relocate f) := by
    cases op with
    | add =>
      simp only [onOthers]
      split <;> rfl
    | _ => rfl
  unfold apply
  split
  · split <;> rfl
  · exact hothers

/-- A comparison does nothing with its offset but attribute an error to it. -/
theorem Comparison.apply_relocate (op : Comparison) :
    op.apply left right (f offset) =
      (op.apply left right offset).mapError (EvalError.relocate f) := by
  unfold apply
  split <;> rfl

/-- A binary operator does nothing with the two offsets but attribute an error to one of them. -/
theorem BinaryOp.apply_relocate (op : BinaryOp) (rightOffset : Nat) :
    op.apply left right (f offset) (f rightOffset) =
      (op.apply left right offset rightOffset).mapError (EvalError.relocate f) := by
  cases op with
  | arithmetic op => exact op.apply_relocate f left right offset
  | comparison op => exact op.apply_relocate f left right rightOffset
  | equal | notEqual | and | or => rfl

end Apply

/-- A tree that is moved evaluates to the same value, or to the same error, moved. -/
theorem Expr.eval_relocate (f : Nat → Nat) (vars : Variables) (e : Expr) :
    (e.relocate f).eval vars = (e.eval vars).mapError (EvalError.relocate f) := by
  induction e with
  | number | text | identifier => rfl
  | unary op operand pos ih =>
    rw [relocate, eval, eval, ih]
    cases operand.eval vars with
    | error error => rfl
    | ok value => exact op.apply_relocate f pos value
  | binary op left right pos ihLeft ihRight =>
    rw [relocate, eval, eval, ihLeft, ihRight, pos_relocate]
    cases left.eval vars with
    | error error => rfl
    | ok leftValue =>
      cases right.eval vars with
      | error error => rfl
      | ok rightValue => exact op.apply_relocate f leftValue rightValue pos right.pos
  | conditional condition whenTrue whenFalse ih ihTrue ihFalse =>
    rw [relocate, eval, eval, ih]
    cases condition.eval vars with
    | error error => rfl
    | ok value =>
      show (if value.isTruthy then (whenTrue.relocate f).eval vars
          else (whenFalse.relocate f).eval vars) =
        (if value.isTruthy then whenTrue.eval vars else whenFalse.eval vars).mapError _
      cases value.isTruthy with
      | true => exact ihTrue
      | false => exact ihFalse

end ScalarExpr
