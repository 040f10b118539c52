import ScalarExpr.Proofs.Expr.FirstFault

/-!
# Replacing a name by an expression

A name that is bound to the value of an expression may be replaced by the expression, also where the
expression mentions the name itself. The value stays the same, and so does an error, since the
replacement has a value wherever it comes to be evaluated.

Only the error of a comparison may move. It is attributed to the right operand, and this is found in
another place if it starts with the replacement.
-/

namespace ScalarExpr

/-- Whether an error is that of a comparison. -/
def EvalError.isComparison : EvalError → Bool
  | comparisonOperands .. => true
  | _ => false

/-- A prefix operator never fails as a comparison does. -/
theorem UnaryOp.isComparison_of_apply {op : UnaryOp} {operand : Value} {offset : Nat}
    {error : EvalError} (h : op.apply operand offset = .error error) :
    error.isComparison = false := by
  cases op <;> cases operand <;> cases h <;> rfl

/-- An arithmetic operator never fails as a comparison does. -/
theorem Arithmetic.isComparison_of_apply {op : Arithmetic} {left right : Value} {offset : Nat}
    {error : EvalError} (h : op.apply left right offset = .error error) :
    error.isComparison = false := by
  unfold apply at h
  split at h
  · split at h
    · cases h
    · cases h
      rfl
  · cases op with
    | add =>
      rw [onOthers] at h
      split at h
      · cases h
        rfl
      · cases h
    | _ =>
      cases h
      rfl

namespace Expr

/-- The tree with an expression in place of every identifier of this name. -/
def substitute (e : Expr) (name : String) (replacement : Expr) : Expr :=
  match e with
  | number value pos => number value pos
  | text value pos => text value pos
  | identifier other pos => if other = name then replacement else identifier other pos
  | unary op operand pos => unary op (operand.substitute name replacement) pos
  | binary op left right pos =>
    binary op (left.substitute name replacement) (right.substitute name replacement) pos
  | conditional condition whenTrue whenFalse =>
    conditional (condition.substitute name replacement) (whenTrue.substitute name replacement)
      (whenFalse.substitute name replacement)

/-- Two results are the same, but for where the error of a comparison is. It is then the fault of the
first of the nodes that is at fault, and stands at the right operand of this node: in the first
result as it is in the tree, and in the second as it is with the name replaced. -/
inductive Coincide (name : String) (replacement : Expr) (vars : Variables) (nodes : List Expr) :
    Except EvalError Value → Except EvalError Value → Prop
  | ok (value : Value) : Coincide name replacement vars nodes (.ok value) (.ok value)
  | error {error : EvalError} : error.isComparison = false →
    Coincide name replacement vars nodes (.error error) (.error error)
  | comparison (before after : List Expr) {op : Comparison} {left right : Expr} {pos : Nat}
      {a b : ValueKind} :
    nodes = before ++ binary (.comparison op) left right pos :: after →
    (∀ node ∈ before, node.fault? vars = none) →
    (binary (.comparison op) left right pos).fault? vars =
      some (.comparisonOperands op a b right.pos) →
    Coincide name replacement vars nodes (.error (.comparisonOperands op a b right.pos))
      (.error (.comparisonOperands op a b (right.substitute name replacement).pos))

/-- A tree that has a value reaches no node at fault. -/
theorem fault?_eq_none_of_reached {vars : Variables} {e : Expr} {value : Value}
    (h : e.eval vars = .ok value) : ∀ node ∈ e.reached vars, node.fault? vars = none := by
  have hagrees := e.agrees_eval vars
  rw [h] at hagrees
  cases hfault : (e.reached vars).findSome? (fault? vars) with
  | none => exact List.findSome?_eq_none_iff.mp hfault
  | some error =>
    rw [hfault] at hagrees
    cases hagrees

namespace Coincide

variable {name : String} {replacement : Expr} {vars : Variables} {nodes : List Expr}
  {result result' : Except EvalError Value}

/-- A result coincides with itself, unless it is the error of a comparison. -/
theorem refl (h : ∀ error, result = .error error → error.isComparison = false) :
    Coincide name replacement vars nodes result result := by
  cases result with
  | ok value => exact .ok value
  | error error => exact .error (h error rfl)

/-- Nodes that come later do not change which is the first at fault. -/
theorem append (h : Coincide name replacement vars nodes result result') (later : List Expr) :
    Coincide name replacement vars (nodes ++ later) result result' := by
  cases h with
  | ok value => exact .ok value
  | error herror => exact .error herror
  | comparison before after hnodes hbefore hfault =>
    exact .comparison before (after ++ later) (by simp [hnodes]) hbefore hfault

/-- Nodes without fault that come earlier do not change which is the first at fault. -/
theorem behind (h : Coincide name replacement vars nodes result result') {earlier : List Expr}
    (hearlier : ∀ node ∈ earlier, node.fault? vars = none) :
    Coincide name replacement vars (earlier ++ nodes) result result' := by
  cases h with
  | ok value => exact .ok value
  | error herror => exact .error herror
  | comparison before after hnodes hbefore hfault =>
    refine .comparison (earlier ++ before) after (by simp [hnodes]) ?_ hfault
    intro node hnode
    exact (List.mem_append.mp hnode).elim (hearlier node) (hbefore node)

/-- Where a tree is evaluated first and its value is used, the results coincide if those of the tree
do and so do those of every use of its value. -/
theorem bind {e e' : Expr} {vars' : Variables} {next next' : Value → Except EvalError Value}
    (h : Coincide name replacement vars (e.reached vars) (e.eval vars) (e'.eval vars'))
    (hnext : ∀ value, e.eval vars = .ok value →
      Coincide name replacement vars nodes (next value) (next' value)) :
    Coincide name replacement vars (e.reached vars ++ nodes) ((e.eval vars).bind next)
      ((e'.eval vars').bind next') := by
  have hreached (value : Value) (hvalue : e.eval vars = .ok value) :=
    fault?_eq_none_of_reached hvalue
  generalize e.eval vars = result, e'.eval vars' = result' at h hnext hreached ⊢
  cases h with
  | ok value => exact (hnext value rfl).behind (hreached value rfl)
  | error herror => exact .error herror
  | comparison before after hnodes hbefore hfault =>
    exact (Coincide.comparison before after hnodes hbefore hfault).append nodes

end Coincide

/-- A binary operator on the values of its operands only looks at the right operand itself to
attribute the error of a comparison. -/
theorem coincide_apply {vars : Variables} {op : BinaryOp} {left right : Expr} {a b : Value}
    (ha : left.eval vars = .ok a) (hb : right.eval vars = .ok b) (name : String)
    (replacement : Expr) (pos : Nat) :
    Coincide name replacement vars [binary op left right pos] (op.apply a b pos right.pos)
      (op.apply a b pos (right.substitute name replacement).pos) := by
  cases op with
  | arithmetic op => exact .refl fun error herror => Arithmetic.isComparison_of_apply herror
  | comparison op =>
    have hfault : (binary (.comparison op) left right pos).fault? vars =
        op.fault? a b right.pos := by
      simp only [fault?, ha, hb, BinaryOp.fault?]
    have hagrees := op.agrees_apply a b right.pos
    rw [← hfault] at hagrees
    simp only [BinaryOp.apply, Comparison.apply] at hagrees ⊢
    split at hagrees
    · exact .ok _
    · refine .comparison [] [] rfl (by simp) ?_
      cases hnode : (binary (.comparison op) left right pos).fault? vars with
      | none =>
        rw [hnode] at hagrees
        obtain ⟨value, hvalue⟩ := hagrees
        cases hvalue
      | some error =>
        rw [hnode, agrees_some] at hagrees
        cases hagrees
        rfl
  | equal | notEqual | and | or => exact .ok _

/-- If an expression has a value, a tree has the same result with a name bound to this value as with
the name replaced by the expression. Only the error of a comparison follows its right operand. -/
theorem coincide_eval_substitute {vars : Variables} {replacement : Expr} {value : Value}
    (h : replacement.eval vars = .ok value) (name : String) (e : Expr) :
    Coincide name replacement (vars.insert name value) (e.reached (vars.insert name value))
      (e.eval (vars.insert name value)) ((e.substitute name replacement).eval vars) := by
  have hresolve (other : String) : Variables.resolve (vars.insert name value) other =
      if other = name then value else vars.resolve other := by
    rw [Variables.resolve, NameMap.find?_insert]
    split <;> rfl
  generalize vars.insert name value = bound at hresolve ⊢
  induction e with
  | number number pos => exact .ok _
  | text text pos => exact .ok _
  | identifier other pos =>
    rw [eval_identifier, substitute, hresolve]
    split
    · rw [h]
      exact .ok value
    · exact .ok _
  | unary op operand pos ih =>
    rw [eval_unary, substitute, eval_unary, reached]
    exact ih.bind fun operandValue _ =>
      .refl fun error herror => UnaryOp.isComparison_of_apply herror
  | binary op left right pos ihLeft ihRight =>
    rw [eval_binary, substitute, eval_binary, reached]
    refine ihLeft.bind fun a ha => ihRight.bind fun b hb => ?_
    exact coincide_apply ha hb name replacement pos
  | conditional condition whenTrue whenFalse ih ihTrue ihFalse =>
    rw [eval_conditional, substitute, eval_conditional, reached]
    refine ih.bind fun conditionValue hvalue => ?_
    simp only [hvalue]
    split
    · exact ihTrue.append _
    · exact ihFalse.append _

/-- A comparison with a sum in which the name stands itself is refused alike, at the name before and
at the sum after the replacement. -/
theorem coincide_comparison_with_sum :
    let vars : Variables := (∅ : Variables).insert "x" (.string "a")
    let sum : Expr := binary (.arithmetic .add) (identifier "x" 10) (text "b" 14) 12
    let bound := vars.insert "x" (.string "ab")
    let comparison : Expr := binary (.comparison .less) (identifier "y" 0) (identifier "x" 4) 2
    sum.eval vars = .ok (.string "ab") ∧
      comparison.eval bound = .error (.comparisonOperands .less .string .string 4) ∧
      (comparison.substitute "x" sum).eval vars =
        .error (.comparisonOperands .less .string .string 12) ∧
      Coincide "x" sum bound (comparison.reached bound) (comparison.eval bound)
        ((comparison.substitute "x" sum).eval vars) := by
  intro vars sum bound comparison
  have hsum : sum.eval vars = .ok (.string "ab") := rfl
  exact ⟨hsum, rfl, rfl, coincide_eval_substitute hsum "x" comparison⟩

end Expr

end ScalarExpr
