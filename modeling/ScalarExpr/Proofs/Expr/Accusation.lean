import ScalarExpr.Proofs.Expr.FirstFault
import ScalarExpr.Proofs.Expr.Height

/-!
# Which node an error comes from

An error of an evaluation is the fault of one node of the tree. It names the operator of that node
and repeats its position, but for a comparison, which repeats the position of the right operand.
-/

namespace ScalarExpr

namespace Expr

/-- An evaluation reaches nothing but nodes of the tree. -/
theorem reached_subset_subtrees (vars : Variables) (e : Expr) : e.reached vars ⊆ e.subtrees := by
  induction e with
  | number | text | identifier => exact List.Subset.refl _
  | unary op operand pos ih =>
    intro node hnode
    simp only [reached, subtrees, List.mem_append, List.mem_cons, List.not_mem_nil] at hnode ⊢
    rcases hnode with hnode | hroot | hnone
    · exact .inr (ih hnode)
    · exact .inl hroot
    · exact hnone.elim
  | binary op left right pos ihleft ihright =>
    intro node hnode
    simp only [reached, subtrees, List.mem_append, List.mem_cons, List.not_mem_nil] at hnode ⊢
    rcases hnode with hnode | hnode | hroot | hnone
    · exact .inr (.inl (ihleft hnode))
    · exact .inr (.inr (ihright hnode))
    · exact .inl hroot
    · exact hnone.elim
  | conditional condition whenTrue whenFalse ihcondition ihtrue ihfalse =>
    intro node hnode
    simp only [reached, subtrees, List.mem_append, List.mem_cons, List.not_mem_nil] at hnode ⊢
    rcases hnode with hnode | hnode | hroot | hnone
    · exact .inr (.inl (ihcondition hnode))
    · split at hnode
      · split at hnode
        · exact .inr (.inr (.inl (ihtrue hnode)))
        · exact .inr (.inr (.inr (ihfalse hnode)))
      · exact absurd hnode List.not_mem_nil
    · exact .inl hroot
    · exact hnone.elim

/-- The error of an evaluation is the fault of a node of the tree. -/
theorem exists_fault_of_eval {vars : Variables} {e : Expr} {error : EvalError}
    (h : e.eval vars = .error error) : ∃ node ∈ e.subtrees, node.fault? vars = some error := by
  have hagrees := e.agrees_eval vars
  cases hfault : (e.reached vars).findSome? (fault? vars) with
  | none =>
    obtain ⟨value, hvalue⟩ := agrees_none.mp (hfault ▸ hagrees)
    rw [h] at hvalue
    cases hvalue
  | some found =>
    rw [hfault, agrees_some, h] at hagrees
    cases hagrees
    obtain ⟨node, hnode, hfound⟩ := List.exists_of_findSome?_eq_some hfault
    exact ⟨node, e.reached_subset_subtrees vars hnode, hfound⟩

end Expr

/-- The nodes that an error can be the fault of. -/
def EvalError.Accuses : EvalError → Expr → Prop
  | .unaryOperand op _ offset, node => op ≠ .not ∧ ∃ operand, node = .unary op operand offset
  | .nullOperand offset, node => ∃ left right, node = .binary (.arithmetic .add) left right offset
  | .arithmeticOperands op _ _ offset, node =>
    op ≠ .add ∧ ∃ left right, node = .binary (.arithmetic op) left right offset
  | .comparisonOperands op _ _ offset, node =>
    ∃ left right pos, node = .binary (.comparison op) left right pos ∧ right.pos = offset
  | .divisionByZero offset, node =>
    ∃ left right, node = .binary (.arithmetic .divide) left right offset

/-- A fault of an arithmetic operator accuses its node. -/
theorem Arithmetic.accuses_of_fault {op : Arithmetic} {a b : Value} {pos : Nat} {error : EvalError}
    (h : op.fault? a b pos = some error) (left right : Expr) :
    error.Accuses (.binary (.arithmetic op) left right pos) := by
  unfold fault? at h
  split at h
  · split at h
    · cases h
      exact ⟨left, right, rfl⟩
    · cases h
  · next hadd =>
    split at h
    · split at h
      · next hzero =>
        cases h
        rw [hzero.1]
        exact ⟨left, right, rfl⟩
      · cases h
    · cases h
      exact ⟨hadd, left, right, rfl⟩

/-- A fault accuses the node that it is found at. -/
theorem Expr.accuses_of_fault {vars : Variables} {node : Expr} {error : EvalError}
    (h : node.fault? vars = some error) : error.Accuses node := by
  cases node with
  | number | text | identifier | conditional => cases h
  | unary op operand pos =>
    rw [fault?] at h
    split at h
    · next value _ =>
      unfold UnaryOp.fault? at h
      split at h
      · cases h
      · next hnot =>
        split at h
        · cases h
        · cases h
          exact ⟨hnot, operand, rfl⟩
    · cases h
  | binary op left right pos =>
    rw [fault?] at h
    split at h
    · cases op with
      | arithmetic op => exact Arithmetic.accuses_of_fault h left right
      | comparison op =>
        simp only [BinaryOp.fault?, Comparison.fault?] at h
        split at h
        · cases h
        · cases h
          exact ⟨left, right, pos, rfl, rfl⟩
      | equal | notEqual | and | or => cases h
    · cases h

end ScalarExpr
