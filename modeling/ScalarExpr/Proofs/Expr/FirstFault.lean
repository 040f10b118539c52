import ScalarExpr.Expr.Eval

/-!
# The first fault decides

What every operator asks of its operands, and the error where it does not get it, are said once for
each operator, apart from its results. The nodes that an evaluation reaches are listed in the order
in which they are reached: both operands of a binary operator, also of a logical one, and of a
conditional only the branch that the value of its condition selects.

An evaluation has a value exactly if every node on the list gets what it asks for, and otherwise
ends with the error of the first node that does not. What the values are is not covered.
-/

namespace ScalarExpr

/-- The error of a prefix operator on a value that is not what it asks for: a number, or for a
negation any value. -/
def UnaryOp.fault? (op : UnaryOp) (operand : Value) (offset : Nat) : Option EvalError :=
  match op with
  | .not => none
  | op => if operand.isNumeric then none else some (.unaryOperand op operand.kind offset)

/-- The error of an arithmetic operator on values that are not what it asks for: two numbers, or for
a sum two values other than null. Only a quotient of numbers asks also that the divisor is not
zero. -/
def Arithmetic.fault? (op : Arithmetic) (left right : Value) (offset : Nat) : Option EvalError :=
  match op with
  | .add => if left = .null ∨ right = .null then some (.nullOperand offset) else none
  | op =>
    if left.isNumeric ∧ right.isNumeric then
      if op = .divide ∧ ∃ divisor ∈ right.float?, Binary64.isZero divisor then
        some (.divisionByZero offset)
      else none
    else some (.arithmeticOperands op left.kind right.kind offset)

/-- The error of a comparison on values that are not what it asks for, two numbers. -/
def Comparison.fault? (op : Comparison) (left right : Value) (offset : Nat) : Option EvalError :=
  if left.isNumeric ∧ right.isNumeric then none
  else some (.comparisonOperands op left.kind right.kind offset)

/-- The error of a binary operator on values that are not what it asks for. Only a comparison
attributes it to the right operand, and only arithmetic and comparisons ask for anything. -/
def BinaryOp.fault? (op : BinaryOp) (left right : Value) (offset rightOffset : Nat) :
    Option EvalError :=
  match op with
  | .arithmetic op => op.fault? left right offset
  | .comparison op => op.fault? left right rightOffset
  | _ => none

namespace Expr

/-- The error of a node whose operands have values that are not what its operator asks for. -/
def fault? (vars : Variables) : Expr → Option EvalError
  | unary op operand pos =>
    match operand.eval vars with
    | .ok value => op.fault? value pos
    | .error _ => none
  | binary op left right pos =>
    match left.eval vars, right.eval vars with
    | .ok a, .ok b => op.fault? a b pos right.pos
    | _, _ => none
  | _ => none

/-- A conditional asks for nothing itself. -/
@[simp]
theorem fault?_conditional (vars : Variables) (condition whenTrue whenFalse : Expr) :
    (conditional condition whenTrue whenFalse).fault? vars = none := rfl

/-- The nodes that an evaluation reaches as long as none of them is at fault, operands first. -/
def reached (vars : Variables) : Expr → List Expr
  | unary op operand pos => operand.reached vars ++ [unary op operand pos]
  | binary op left right pos =>
    left.reached vars ++ (right.reached vars ++ [binary op left right pos])
  | conditional condition whenTrue whenFalse =>
    let branch :=
      match condition.eval vars with
      | .ok value => if value.isTruthy then whenTrue.reached vars else whenFalse.reached vars
      | .error _ => []
    condition.reached vars ++ (branch ++ [conditional condition whenTrue whenFalse])
  | leaf => [leaf]

end Expr

/-- Whether a result and the first fault agree: there is a value and no fault, or a fault and its
error. -/
def Agrees (fault? : Option EvalError) (result : Except EvalError Value) : Prop :=
  match fault? with
  | none => ∃ value, result = .ok value
  | some error => result = .error error

/-- Without a fault, agreement is having a value. -/
@[simp]
theorem agrees_none {result : Except EvalError Value} :
    Agrees none result ↔ ∃ value, result = .ok value := Iff.rfl

/-- With a fault, agreement is having its error. -/
@[simp]
theorem agrees_some {error : EvalError} {result : Except EvalError Value} :
    Agrees (some error) result ↔ result = .error error := Iff.rfl

/-- Where one evaluation goes on after another, the faults of the first come first. -/
theorem Agrees.bind {first second : Option EvalError} {result : Except EvalError Value}
    {next : Value → Except EvalError Value} (hfirst : Agrees first result)
    (hnext : ∀ value, result = .ok value → Agrees second (next value)) :
    Agrees (first.or second) (result.bind next) := by
  cases first with
  | some error =>
    rw [agrees_some] at hfirst
    rw [hfirst]
    rfl
  | none =>
    obtain ⟨value, hvalue⟩ := agrees_none.mp hfirst
    have hsecond := hnext value hvalue
    rw [hvalue]
    exact hsecond

/-- Where one evaluation goes on after another, the last value comes from one of the first. -/
theorem bind_eq_ok_iff {first : Except EvalError Value} {next : Value → Except EvalError Value}
    {result : Value} :
    first.bind next = .ok result ↔ ∃ value, first = .ok value ∧ next value = .ok result := by
  cases first with
  | error error => exact ⟨nofun, nofun⟩
  | ok value =>
    constructor
    · exact fun h => ⟨value, rfl, h⟩
    · rintro ⟨_, ⟨⟩, h⟩
      exact h

/-- A prefix operator has a value exactly on what it asks for. -/
theorem UnaryOp.agrees_apply (op : UnaryOp) (operand : Value) (offset : Nat) :
    Agrees (op.fault? operand offset) (op.apply operand offset) := by
  cases op <;> cases operand <;> simp [fault?, apply, Value.isNumeric, Value.number?]

/-- Arithmetic on values that are not both numbers is only ever a sum of values other than null. -/
theorem Arithmetic.agrees_onOthers (op : Arithmetic) {left right : Value} (offset : Nat)
    (h : ¬ (left.isNumeric ∧ right.isNumeric)) :
    Agrees (op.fault? left right offset) (op.onOthers left right offset) := by
  cases op with
  | add =>
    simp only [fault?, onOthers]
    split <;> simp
  | _ => simp only [fault?, onOthers, if_neg h, agrees_some]

/-- An arithmetic operator has a value exactly on what it asks for. -/
theorem Arithmetic.agrees_apply (op : Arithmetic) (left right : Value) (offset : Nat) :
    Agrees (op.fault? left right offset) (op.apply left right offset) := by
  by_cases h : left.isNumeric ∧ right.isNumeric
  · obtain ⟨m, hm⟩ := Option.isSome_iff_exists.mp h.1
    obtain ⟨n, hn⟩ := Option.isSome_iff_exists.mp h.2
    have hnull : ¬ (left = .null ∨ right = .null) := by
      rintro (rfl | rfl)
      · cases hm
      · cases hn
    have hfloat : right.float? = some n.toFloat := by rw [Value.float?, hn, Option.map_some]
    simp only [apply, hm, hn, Number.operate?]
    by_cases hzero : op = .divide ∧ Binary64.isZero n.toFloat
    · obtain ⟨rfl, hzero⟩ := hzero
      simp [fault?, h, hfloat, hzero]
    · rw [if_neg hzero]
      cases op <;> simp_all [fault?]
  · have happly : op.apply left right offset = op.onOthers left right offset := by
      unfold apply
      split
      · next hm hn => exact absurd (by simp [Value.isNumeric, hm, hn]) h
      · rfl
    rw [happly]
    exact op.agrees_onOthers offset h

/-- A comparison has a value exactly on what it asks for. -/
theorem Comparison.agrees_apply (op : Comparison) (left right : Value) (offset : Nat) :
    Agrees (op.fault? left right offset) (op.apply left right offset) := by
  cases hleft : left.number? <;> cases hright : right.number? <;>
    simp [fault?, apply, Value.float?, Value.isNumeric, hleft, hright]

/-- A binary operator has a value exactly on what it asks for. -/
theorem BinaryOp.agrees_apply (op : BinaryOp) (left right : Value) (offset rightOffset : Nat) :
    Agrees (op.fault? left right offset rightOffset) (op.apply left right offset rightOffset) := by
  cases op with
  | arithmetic op => exact op.agrees_apply left right offset
  | comparison op => exact op.agrees_apply left right rightOffset
  | _ => exact ⟨_, rfl⟩

namespace Expr

/-- A prefix operator is applied after its operand is evaluated. -/
theorem eval_unary (vars : Variables) (op : UnaryOp) (operand : Expr) (pos : Nat) :
    (unary op operand pos).eval vars = (operand.eval vars).bind fun value => op.apply value pos := by
  rw [eval]
  cases operand.eval vars <;> rfl

/-- A binary operator is applied after both operands are evaluated, the left one first. -/
theorem eval_binary (vars : Variables) (op : BinaryOp) (left right : Expr) (pos : Nat) :
    (binary op left right pos).eval vars =
      (left.eval vars).bind fun a => (right.eval vars).bind fun b =>
        op.apply a b pos right.pos := by
  rw [eval]
  cases left.eval vars with
  | error error => rfl
  | ok value => cases right.eval vars <;> rfl

/-- A branch is evaluated after the condition that selects it. -/
theorem eval_conditional (vars : Variables) (condition whenTrue whenFalse : Expr) :
    (conditional condition whenTrue whenFalse).eval vars =
      (condition.eval vars).bind fun value =>
        if value.isTruthy then whenTrue.eval vars else whenFalse.eval vars := by
  rw [eval]
  cases condition.eval vars <;> rfl

/-- An evaluation agrees with the first fault among the nodes that it reaches. -/
theorem agrees_eval (vars : Variables) (e : Expr) :
    Agrees ((e.reached vars).findSome? (fault? vars)) (e.eval vars) := by
  induction e with
  | number value pos => exact ⟨_, rfl⟩
  | text value pos => exact ⟨_, rfl⟩
  | identifier name pos => exact ⟨_, rfl⟩
  | unary op operand pos ih =>
    rw [eval_unary, reached, List.findSome?_append, List.findSome?_singleton]
    refine ih.bind fun value hvalue => ?_
    simp only [fault?, hvalue]
    exact op.agrees_apply value pos
  | binary op left right pos ihleft ihright =>
    rw [eval_binary, reached, List.findSome?_append, List.findSome?_append,
      List.findSome?_singleton]
    refine ihleft.bind fun a ha => ihright.bind fun b hb => ?_
    simp only [fault?, ha, hb]
    exact op.agrees_apply a b pos right.pos
  | conditional condition whenTrue whenFalse ihcondition ihtrue ihfalse =>
    -- The root of a conditional is never at fault, so what is reached last adds nothing.
    rw [eval_conditional, reached, List.findSome?_append, List.findSome?_append,
      List.findSome?_singleton, fault?_conditional, Option.or_none]
    refine ihcondition.bind fun value hvalue => ?_
    simp only [hvalue]
    split
    · exact ihtrue
    · exact ihfalse

/-- A disjunction evaluates its right operand also where the left one is true. -/
example : (binary .or (text "a" 0) (unary .minus (text "b" 6) 5) 2).eval (∅ : Variables) =
    .error (.unaryOperand .minus .string 5) := rfl

end Expr

end ScalarExpr
