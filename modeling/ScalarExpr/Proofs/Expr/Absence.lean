import Mathlib.Logic.Relation
import ScalarExpr.Diagnostic
import ScalarExpr.Proofs.Expr.FirstFault

/-!
# Where null comes from

No operator has null as its result. A conditional hands on the value of the branch that it selects,
whatever this is, and so null is the value of an expression only where the branches selected one
after another end at a name that is bound to it.

A name that is not bound stands for itself, so that without null among the variables there is none
among the values.
-/

namespace ScalarExpr

/-- No prefix operator makes null of a value. -/
theorem UnaryOp.apply_ne_null (op : UnaryOp) (operand : Value) (offset : Nat) :
    op.apply operand offset ≠ .ok .null := by
  cases op <;> cases operand <;> simp [apply]

/-- Arithmetic on values that are not both numbers never makes null of them. -/
theorem Arithmetic.onOthers_ne_null (op : Arithmetic) (left right : Value) (offset : Nat) :
    op.onOthers left right offset ≠ .ok .null := by
  unfold onOthers
  split
  · split <;> simp
  · simp

/-- Arithmetic never makes null of two values. -/
theorem Arithmetic.apply_ne_null (op : Arithmetic) (left right : Value) (offset : Nat) :
    op.apply left right offset ≠ .ok .null := by
  unfold apply
  split
  · split <;> simp
  · exact op.onOthers_ne_null left right offset

/-- A comparison never makes null of two values. -/
theorem Comparison.apply_ne_null (op : Comparison) (left right : Value) (offset : Nat) :
    op.apply left right offset ≠ .ok .null := by
  unfold apply
  split <;> simp

/-- No binary operator makes null of two values. -/
theorem BinaryOp.apply_ne_null (op : BinaryOp) (left right : Value) (offset rightOffset : Nat) :
    op.apply left right offset rightOffset ≠ .ok .null := by
  cases op with
  | arithmetic op => exact op.apply_ne_null left right offset
  | comparison op => exact op.apply_ne_null left right rightOffset
  | _ => simp [apply]

/-- A name stands for null exactly if it is bound to it. -/
theorem Variables.resolve_eq_null_iff {vars : Variables} {name : String} :
    vars.resolve name = .null ↔ vars.find? name = some .null := by
  unfold resolve
  cases vars.find? name <;> simp

namespace Expr

variable {vars : Variables} {e : Expr}

/-- A conditional, and the branch that the value of its condition selects. -/
inductive Selects (vars : Variables) : Expr → Expr → Prop
  | whenTrue {condition whenTrue whenFalse : Expr} {value : Value}
      (hvalue : condition.eval vars = .ok value) (htruthy : value.isTruthy = true) :
      Selects vars (conditional condition whenTrue whenFalse) whenTrue
  | whenFalse {condition whenTrue whenFalse : Expr} {value : Value}
      (hvalue : condition.eval vars = .ok value) (htruthy : value.isTruthy = false) :
      Selects vars (conditional condition whenTrue whenFalse) whenFalse

/-- A conditional has the value of its branch. -/
theorem Selects.eval_eq {branch : Expr} (h : Selects vars e branch) :
    e.eval vars = branch.eval vars := by
  cases h with
  | whenTrue hvalue htruthy =>
    rw [eval_conditional, hvalue]
    exact if_pos htruthy
  | whenFalse hvalue htruthy =>
    rw [eval_conditional, hvalue]
    exact if_neg (Bool.not_eq_true _ ▸ htruthy)

/-- An expression leads to another through the branches that its conditionals select. -/
def LeadsTo (vars : Variables) : Expr → Expr → Prop := Relation.ReflTransGen (Selects vars)

/-- An expression has the value of what it leads to. -/
theorem LeadsTo.eval_eq {last : Expr} (h : LeadsTo vars e last) :
    e.eval vars = last.eval vars := by
  induction h with
  | refl => rfl
  | tail _ hselects ih => exact ih.trans hselects.eval_eq

/-- An expression with null as its value leads to a name of it. -/
theorem exists_leadsTo_of_eval (h : e.eval vars = .ok .null) :
    ∃ name pos, LeadsTo vars e (identifier name pos) ∧ vars.find? name = some .null := by
  induction e with
  | number value pos => cases h
  | text value pos => cases h
  | identifier name pos =>
    exact ⟨name, pos, .refl, Variables.resolve_eq_null_iff.mp (Except.ok.inj h)⟩
  | unary op operand pos =>
    rw [eval_unary, bind_eq_ok_iff] at h
    obtain ⟨value, -, happly⟩ := h
    exact absurd happly (op.apply_ne_null value pos)
  | binary op left right pos =>
    rw [eval_binary, bind_eq_ok_iff] at h
    obtain ⟨a, -, h⟩ := h
    obtain ⟨b, -, happly⟩ := bind_eq_ok_iff.mp h
    exact absurd happly (op.apply_ne_null a b pos right.pos)
  | conditional condition whenTrue whenFalse _ ihtrue ihfalse =>
    rw [eval_conditional, bind_eq_ok_iff] at h
    obtain ⟨value, hvalue, hbranch⟩ := h
    cases htruthy : value.isTruthy with
    | true =>
      rw [if_pos htruthy] at hbranch
      obtain ⟨name, pos, hleads, hbound⟩ := ihtrue hbranch
      exact ⟨name, pos, hleads.head (.whenTrue hvalue htruthy), hbound⟩
    | false =>
      rw [if_neg (Bool.not_eq_true _ ▸ htruthy)] at hbranch
      obtain ⟨name, pos, hleads, hbound⟩ := ihfalse hbranch
      exact ⟨name, pos, hleads.head (.whenFalse hvalue htruthy), hbound⟩

/-- Null is the value of an expression exactly if this leads to a name of it. -/
theorem eval_eq_null_iff : e.eval vars = .ok .null ↔
    ∃ name pos, LeadsTo vars e (identifier name pos) ∧ vars.find? name = some .null := by
  constructor
  · exact exists_leadsTo_of_eval
  · rintro ⟨name, pos, hleads, hbound⟩
    rw [hleads.eval_eq, eval_identifier, Variables.resolve_eq_null_iff.mpr hbound]

/-- Without a name of null no expression has it as its value. -/
theorem eval_ne_null (h : ∀ name, vars.find? name ≠ some .null) (e : Expr) :
    e.eval vars ≠ .ok .null := by
  intro heval
  obtain ⟨name, -, -, hbound⟩ := exists_leadsTo_of_eval heval
  exact h name hbound

end Expr

/-- Without a name of null no text has it as its value. -/
theorem evaluateWith_ne_null {vars : Variables} (h : ∀ name, vars.find? name ≠ some .null)
    (source : String) : evaluateWith vars source ≠ .ok .null := by
  unfold evaluateWith evaluateIn
  split
  · exact nofun
  · next expr _ =>
    split
    · exact nofun
    · next value hvalue =>
      rintro ⟨⟩
      exact expr.eval_ne_null h hvalue

/-- Without variables no text has null as its value. -/
theorem evaluate_ne_null (source : String) : evaluate source ≠ .ok .null := by
  rw [evaluate_eq_evaluateWith]
  exact @evaluateWith_ne_null ∅ (fun _ => nofun) source

/-- Null is the value of an expression exactly if this leads to a name that is bound to it. Without
such a name neither an expression nor a text has it as its value, and no text has without variables. -/
theorem null_only_from_variables :
    (∀ (vars : Variables) (e : Expr), e.eval vars = .ok .null ↔
      ∃ name pos, e.LeadsTo vars (.identifier name pos) ∧ vars.find? name = some .null) ∧
    (∀ vars : Variables, (∀ name, vars.find? name ≠ some .null) →
      (∀ e : Expr, e.eval vars ≠ .ok .null) ∧ ∀ source, evaluateWith vars source ≠ .ok .null) ∧
    ∀ source, evaluate source ≠ .ok .null :=
  ⟨fun _ _ => Expr.eval_eq_null_iff, fun _ h => ⟨Expr.eval_ne_null h, evaluateWith_ne_null h⟩,
    evaluate_ne_null⟩

end ScalarExpr
