import ScalarExpr.Proofs.Expr.Height
import ScalarExpr.Expr.Eval
import ScalarExpr.Proofs.Number.Exact

/-!
# Exact evaluation

The exact value of an expression of integers is defined over all integers, where every quotient
comes out even and no divisor is zero. An expression with other operators or other values has none.

As long as no exact value met on the way leaves the 64 bits, evaluation finds the last of them.
-/

namespace ScalarExpr

namespace Expr

/-- The exact value of an expression of numerals, names, signs and arithmetic over the integers. -/
inductive Exact (vars : Variables) : Expr → Int → Prop
  | number (value : Int64) (pos : Nat) : Exact vars (number (.integer value) pos) value.toInt
  | identifier {name : String} {value : Int64} (pos : Nat)
      (hbound : vars.resolve name = .number (.integer value)) :
      Exact vars (identifier name pos) value.toInt
  | plus {operand : Expr} {n : Int} (pos : Nat) (hoperand : Exact vars operand n) :
      Exact vars (unary .plus operand pos) n
  | minus {operand : Expr} {n : Int} (pos : Nat) (hoperand : Exact vars operand n) :
      Exact vars (unary .minus operand pos) (-n)
  | arithmetic {op : Arithmetic} {left right : Expr} {a b n : Int} (pos : Nat)
      (hleft : Exact vars left a) (hright : Exact vars right b) (hresult : op.Exact a b n) :
      Exact vars (binary (.arithmetic op) left right pos) n

end Expr

/-- An operator on integers has its exact result as value where this fits. -/
theorem Arithmetic.apply_of_exact {op : Arithmetic} {a b n : Int64} (offset : Nat)
    (h : op.Exact a.toInt b.toInt n.toInt) :
    op.apply (.number (.integer a)) (.number (.integer b)) offset =
      .ok (.number (.integer n)) := by
  have hresult := Number.operate?_of_exact h
  simp only [apply, Value.number?, hresult]

namespace Expr

variable {vars : Variables} {e : Expr} {m n : Int}

/-- An expression has at most one exact value. -/
theorem Exact.unique (hm : e.Exact vars m) (hn : e.Exact vars n) : m = n := by
  induction hm generalizing n with
  | number value pos =>
    cases hn
    rfl
  | identifier pos hbound =>
    cases hn with
    | identifier _ hbound' =>
      rw [hbound] at hbound'
      cases hbound'
      rfl
  | plus pos _ ih =>
    cases hn with
    | plus _ hoperand => exact ih hoperand
  | minus pos _ ih =>
    cases hn with
    | minus _ hoperand => rw [ih hoperand]
  | arithmetic pos _ _ hresult ihleft ihright =>
    cases hn with
    | arithmetic _ hleft hright hresult' =>
      cases ihleft hleft
      cases ihright hright
      exact hresult.unique hresult'

/-- The exact values of an expression and of everything below it fit 64 bits. -/
def Fits (vars : Variables) (e : Expr) : Prop :=
  ∀ node ∈ e.subtrees, ∀ n, node.Exact vars n → -2 ^ 63 ≤ n ∧ n < 2 ^ 63

/-- A tree is one of its subtrees. -/
theorem self_mem_subtrees (e : Expr) : e ∈ e.subtrees := by
  cases e <;> simp [subtrees]

/-- An exact value that fits is that of a 64-bit integer. -/
theorem Fits.exists_toInt_eq (hfits : e.Fits vars) (h : e.Exact vars n) :
    ∃ value : Int64, value.toInt = n := by
  obtain ⟨hlow, hhigh⟩ := hfits e e.self_mem_subtrees n h
  exact ⟨.ofInt n, Int64.toInt_ofInt_of_le hlow hhigh⟩

/-- What an operator stands before fits with it. -/
theorem Fits.operand {op : UnaryOp} {operand : Expr} {pos : Nat}
    (h : (unary op operand pos).Fits vars) : operand.Fits vars :=
  fun node hnode => h node (List.mem_cons_of_mem _ hnode)

/-- What an operator stands between fits with it. -/
theorem Fits.operands {op : BinaryOp} {left right : Expr} {pos : Nat}
    (h : (binary op left right pos).Fits vars) : left.Fits vars ∧ right.Fits vars :=
  ⟨fun node hnode => h node (List.mem_cons_of_mem _ (List.mem_append_left _ hnode)),
    fun node hnode => h node (List.mem_cons_of_mem _ (List.mem_append_right _ hnode))⟩

/-- An expression is evaluated to its exact value as long as this and the exact values below it fit
64 bits. -/
theorem eval_of_exact (h : e.Exact vars n) (hfits : e.Fits vars) :
    ∃ value : Int64, value.toInt = n ∧ e.eval vars = .ok (.number (.integer value)) := by
  -- The result is fixed before the induction, so that every case only has to find that value.
  obtain ⟨result, hresult⟩ := hfits.exists_toInt_eq h
  refine ⟨result, hresult, ?_⟩
  induction h generalizing result with
  | number value pos => rw [eval, Int64.toInt_inj.mp hresult]
  | identifier pos hbound => rw [eval_identifier, hbound, Int64.toInt_inj.mp hresult]
  | plus pos hoperand ih =>
    rw [eval, ih hfits.operand result hresult]
    rfl
  | minus pos hoperand ih =>
    obtain ⟨value, rfl⟩ := hfits.operand.exists_toInt_eq hoperand
    rw [eval, ih hfits.operand value rfl]
    exact congrArg (Except.ok ∘ Value.number) (Number.negate_integer hresult)
  | arithmetic pos hleft hright hexact ihleft ihright =>
    obtain ⟨a, rfl⟩ := hfits.operands.1.exists_toInt_eq hleft
    obtain ⟨b, rfl⟩ := hfits.operands.2.exists_toInt_eq hright
    rw [eval, ihleft hfits.operands.1 a rfl, ihright hfits.operands.2 b rfl]
    exact Arithmetic.apply_of_exact pos (hresult ▸ hexact)

/-- The least integer leaves no remainder by minus one, although its quotient does not fit. -/
theorem eval_least_remainder :
    let vars : Variables := .ofList [("least", .number (.integer Int64.minValue))]
    let e : Expr := .binary (.arithmetic .remainder) (.identifier "least" 0)
      (.unary .minus (.number (.integer 1) 9) 8) 6
    e.Exact vars 0 ∧ e.Fits vars ∧
      ∃ value : Int64, value.toInt = 0 ∧ e.eval vars = .ok (.number (.integer value)) := by
  intro vars e
  have hleast : Exact vars (.identifier "least" 0) Int64.minValue.toInt := .identifier 0 (by decide)
  have hone : Exact vars (.number (.integer 1) 9) (1 : Int64).toInt := .number 1 9
  have hminus : Exact vars (.unary .minus (.number (.integer 1) 9) 8) (-(1 : Int64).toInt) :=
    .minus 8 hone
  have hexact : e.Exact vars 0 := .arithmetic 6 hleast hminus ⟨by decide, by decide⟩
  have hfits : e.Fits vars := by
    intro node hnode n hn
    simp only [e, subtrees, List.mem_cons, List.mem_append, List.not_mem_nil, or_false] at hnode
    rcases hnode with rfl | rfl | rfl | rfl
    · cases hn.unique hexact
      decide
    · cases hn.unique hleast
      decide
    · cases hn.unique hminus
      decide
    · cases hn.unique hone
      decide
  exact ⟨hexact, hfits, eval_of_exact hexact hfits⟩

end Expr

end ScalarExpr
