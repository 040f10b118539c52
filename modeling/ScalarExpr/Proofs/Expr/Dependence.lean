import ScalarExpr.Proofs.Expr.FirstFault

/-!
# What a result depends on

An evaluation looks up the names that it comes to, in the branches that it takes and up to its first
error. Nothing else decides its result: not the bindings of other names, nor the branches that are
not taken. A name that is not bound cannot be told from one that is bound to itself as a string.

The error of a comparison is attributed to the right operand, which is looked at for that purpose
without being evaluated once more. Only conditions are looked at then, and never a branch.
-/

namespace ScalarExpr

namespace Variables

/-- Two maps make the same of a name: it has the same binding in both or none in both, or it has none
in one of them and stands for itself in the other. -/
def Alike (vars vars' : Variables) (name : String) : Prop :=
  vars.find? name = vars'.find? name ∨
    (vars.find? name = none ∧ vars'.find? name = some (.string name)) ∨
    (vars.find? name = some (.string name) ∧ vars'.find? name = none)

instance (vars vars' : Variables) (name : String) : Decidable (vars.Alike vars' name) :=
  inferInstanceAs (Decidable (_ ∨ _))

/-- Two maps make the same of a name exactly if it stands for the same value in both. -/
theorem alike_iff_resolve_eq {vars vars' : Variables} {name : String} :
    vars.Alike vars' name ↔ vars.resolve name = vars'.resolve name := by
  unfold Alike resolve
  cases vars.find? name <;> cases vars'.find? name <;> simp [eq_comm]

end Variables

namespace Expr

/-- The names that an evaluation looks up, in this order. -/
def lookups (vars : Variables) : Expr → List String
  | number .. | text .. => []
  | identifier name _ => [name]
  | unary _ operand _ => operand.lookups vars
  | binary _ left right _ =>
    left.lookups vars ++
      match left.eval vars with
      | .ok _ => right.lookups vars
      | .error _ => []
  | conditional condition whenTrue whenFalse =>
    condition.lookups vars ++
      match condition.eval vars with
      | .ok value => if value.isTruthy then whenTrue.lookups vars else whenFalse.lookups vars
      | .error _ => []

/-- A tree differs from another only where the evaluation of that one does not come: in the branches
of conditionals that are not taken, and in what an error before it keeps from being evaluated. -/
inductive Spares (vars : Variables) : Expr → Expr → Prop
  | number {value : Number} {pos : Nat} : Spares vars (number value pos) (number value pos)
  | text {value : String} {pos : Nat} : Spares vars (text value pos) (text value pos)
  | identifier {name : String} {pos : Nat} : Spares vars (identifier name pos) (identifier name pos)
  | unary {op : UnaryOp} {operand operand' : Expr} {pos : Nat} :
    Spares vars operand operand' → Spares vars (unary op operand pos) (unary op operand' pos)
  | binary {op : BinaryOp} {left left' right right' : Expr} {pos : Nat} :
    Spares vars left left' →
    (∀ value, left.eval vars = .ok value → Spares vars right right') →
    Spares vars (binary op left right pos) (binary op left' right' pos)
  | conditional {condition condition' whenTrue whenTrue' whenFalse whenFalse' : Expr} :
    Spares vars condition condition' →
    (∀ value, condition.eval vars = .ok value → value.isTruthy = true →
      Spares vars whenTrue whenTrue') →
    (∀ value, condition.eval vars = .ok value → value.isTruthy = false →
      Spares vars whenFalse whenFalse') →
    Spares vars (conditional condition whenTrue whenFalse)
      (conditional condition' whenTrue' whenFalse')

namespace Spares

variable {vars vars' : Variables} {e e' : Expr}

/-- A tree does not differ from itself. -/
theorem refl (vars : Variables) (e : Expr) : Spares vars e e := by
  induction e with
  | number => exact .number
  | text => exact .text
  | identifier => exact .identifier
  | unary _ _ _ ih => exact .unary ih
  | binary _ _ _ _ ihLeft ihRight => exact .binary ihLeft fun _ _ => ihRight
  | conditional _ _ _ ih ihTrue ihFalse => exact .conditional ih (fun _ _ _ => ihTrue) fun _ _ _ => ihFalse

/-- Where a tree is attributed to does not depend on what is spared, since no branch decides it. -/
theorem pos_eq (h : Spares vars e e') : e'.pos = e.pos := by
  induction h with
  | number | text | identifier | unary | binary => rfl
  | conditional _ _ _ ih => exact ih

/-- What is spared, and what is made of names that are not looked up, does not matter for the
result. -/
theorem eval_eq (h : Spares vars e e') (halike : ∀ name ∈ e.lookups vars, vars.Alike vars' name) :
    e'.eval vars' = e.eval vars := by
  induction h with
  | number | text => rfl
  | identifier =>
    have hresolve := Variables.alike_iff_resolve_eq.mp (halike _ (List.mem_singleton_self _))
    rw [eval_identifier, eval_identifier, hresolve]
  | unary _ ih => rw [eval_unary, eval_unary, ih halike]
  | @binary op left left' right right' pos _ hright ih ihRight =>
    simp only [lookups, List.mem_append] at halike
    rw [eval_binary, eval_binary, ih fun name hname => halike name (.inl hname)]
    cases hleft : left.eval vars with
    | error error => rfl
    | ok value =>
      simp only [hleft] at halike
      rw [ihRight value hleft fun name hname => halike name (.inr hname),
        (hright value hleft).pos_eq]
  | @conditional condition condition' whenTrue whenTrue' whenFalse whenFalse' _ _ _ ih ihTrue
      ihFalse =>
    simp only [lookups, List.mem_append] at halike
    rw [eval_conditional, eval_conditional, ih fun name hname => halike name (.inl hname)]
    cases hcondition : condition.eval vars with
    | error error => rfl
    | ok value =>
      simp only [hcondition] at halike
      cases htruthy : value.isTruthy with
      | true =>
        simp only [htruthy, if_true] at halike
        simpa [Except.bind, htruthy] using
          ihTrue value hcondition htruthy fun name hname => halike name (.inr hname)
      | false =>
        simp only [htruthy, Bool.false_eq_true, if_false] at halike
        simpa [Except.bind, htruthy] using
          ihFalse value hcondition htruthy fun name hname => halike name (.inr hname)

end Spares

/-- The names in a tree. -/
def names : Expr → List String
  | number .. | text .. => []
  | identifier name _ => [name]
  | unary _ operand _ => operand.names
  | binary _ left right _ => left.names ++ right.names
  | conditional condition whenTrue whenFalse =>
    condition.names ++ (whenTrue.names ++ whenFalse.names)

/-- An evaluation looks up nothing but names of the tree. -/
theorem lookups_subset_names (vars : Variables) (e : Expr) : e.lookups vars ⊆ e.names := by
  induction e with
  | number | text | identifier => exact List.Subset.refl _
  | unary op operand pos ih => exact ih
  | binary op left right pos ihLeft ihRight =>
    intro name hname
    simp only [lookups, names, List.mem_append] at hname ⊢
    rcases hname with hname | hname
    · exact .inl (ihLeft hname)
    · split at hname
      · exact .inr (ihRight hname)
      · exact absurd hname List.not_mem_nil
  | conditional condition whenTrue whenFalse ih ihTrue ihFalse =>
    intro name hname
    simp only [lookups, names, List.mem_append] at hname ⊢
    rcases hname with hname | hname
    · exact .inl (ih hname)
    · split at hname
      · split at hname
        · exact .inr (.inl (ihTrue hname))
        · exact .inr (.inr (ihFalse hname))
      · exact absurd hname List.not_mem_nil

end Expr

end ScalarExpr
