import ScalarExpr.Proofs.Expr.Accusation
import ScalarExpr.Proofs.Number.Equality
import ScalarExpr.Proofs.Number.Exact

/-!
# Numeric expressions

An expression of numerals, names of numbers, signs and arithmetic has a number as its value, unless
it divides by zero. Only then is there an error, that of such a division.

A double is never lost on the way: an operator makes a double of it, so that an integer as the value
comes from nothing but integers. The integers may make a double too, where the exact result does not
fit or is none. A remainder by zero is one of these doubles, and not an error.
-/

namespace ScalarExpr

namespace Number

variable {a b : Number}

/-- The numbers that are zero: an integer, and a double of either sign. -/
def zeros : List Number := [.integer 0, .float 0.0, .float (-0.0)]

/-- The numbers that are zero are those with zero as their double. -/
theorem mem_zeros_iff {n : Number} : n ∈ zeros ↔ Binary64.isZero n.toFloat = true := by
  cases n with
  | integer value =>
    have hvalue : value = 0 ↔ value.toInt = 0 := Int64.toInt_inj.symm
    rw [toFloat, isZero_ofInt, ← hvalue]
    simp [zeros]
  | float value =>
    rw [toFloat, Binary64.isZero_iff_eq]
    simp [zeros]

/-- An integer is the opposite only of an integer. -/
theorem exists_negate_eq_integer {n : Number} {value : Int64} (h : n.negate = .integer value) :
    ∃ i, n = .integer i := by
  cases n with
  | integer i => exact ⟨i, rfl⟩
  | float x => cases h

/-- An integer is the result of an operator only on integers. -/
theorem exists_combine_eq_integer {op : Arithmetic} {value : Int64}
    (h : combine op a b = .integer value) : (∃ i, a = .integer i) ∧ ∃ j, b = .integer j := by
  cases a with
  | integer i =>
    cases b with
    | integer j => exact ⟨⟨i, rfl⟩, j, rfl⟩
    | float y => cases h
  | float x => cases b <;> cases h

/-- A remainder by zero is no number. -/
theorem combine_remainder_of_mem_zeros (h : b ∈ zeros) :
    combine .remainder a b = .float Binary64.nan := by
  have hzero := mem_zeros_iff.mp h
  have hnan : Binary64.remainder a.toFloat b.toFloat = Binary64.nan :=
    Binary64.remainder_of_isZero hzero
  cases a with
  | float x => exact congrArg Number.float hnan
  | integer i =>
    cases b with
    | float y => exact congrArg Number.float hnan
    | integer j =>
      have hj : j.toInt = 0 := (isZero_ofInt j).mp hzero
      have hnone : Arithmetic.remainder.onIntegers? i.toInt j.toInt = none :=
        if_neg fun h => h.1 hj
      have hwhole : ofWhole Binary64.nan = .float Binary64.nan := by decide +kernel
      rw [combine, hnone, Option.bind_none, ← hwhole]
      exact congrArg ofWhole hnan

end Number

/-- A sign before a number gives a number, and an integer only before an integer. -/
theorem UnaryOp.exists_apply_number {op : UnaryOp} (hop : op ≠ .not) (n : Number) (offset : Nat) :
    ∃ result, op.apply (.number n) offset = .ok (.number result) ∧
      ∀ value, result = .integer value → ∃ i, n = .integer i := by
  cases op with
  | not => exact absurd rfl hop
  | plus => exact ⟨n, rfl, fun value h => ⟨value, h⟩⟩
  | minus => exact ⟨n.negate, rfl, fun value => Number.exists_negate_eq_integer⟩

/-- Arithmetic on numbers gives their number, except for a division by zero. -/
theorem Arithmetic.apply_numbers (op : Arithmetic) (m n : Number) (offset : Nat) :
    op.apply (.number m) (.number n) offset =
      if op = .divide ∧ n ∈ Number.zeros then .error (.divisionByZero offset)
      else .ok (.number (Number.combine op m n)) := by
  simp only [apply, Value.number?, Number.operate?, Number.mem_zeros_iff]
  split_ifs <;> rfl

/-- Arithmetic on numbers is at fault only in a division by zero. -/
theorem Arithmetic.fault?_numbers (op : Arithmetic) (m n : Number) (offset : Nat) :
    op.fault? (.number m) (.number n) offset =
      if op = .divide ∧ n ∈ Number.zeros then some (.divisionByZero offset) else none := by
  cases op <;> simp [fault?, Value.isNumeric, Value.number?, Value.float?, Number.mem_zeros_iff]

namespace Expr

variable {vars : Variables} {e : Expr}

/-- An expression is made of numerals and names of numbers with signs and arithmetic. -/
inductive IsNumeric (vars : Variables) : Expr → Prop
  | number (value : Number) (pos : Nat) : IsNumeric vars (number value pos)
  | identifier {name : String} {value : Number} (pos : Nat)
      (hbound : vars.find? name = some (.number value)) : IsNumeric vars (identifier name pos)
  | sign {op : UnaryOp} {operand : Expr} (pos : Nat) (hop : op ≠ .not)
      (hoperand : IsNumeric vars operand) : IsNumeric vars (unary op operand pos)
  | arithmetic {op : Arithmetic} {left right : Expr} (pos : Nat)
      (hleft : IsNumeric vars left) (hright : IsNumeric vars right) :
      IsNumeric vars (binary (.arithmetic op) left right pos)

namespace IsNumeric

/-- What the root of a numeric expression is applied to is numeric. -/
theorem of_mem_children (h : e.IsNumeric vars) : ∀ child ∈ e.children, child.IsNumeric vars := by
  cases h with
  | number | identifier => exact List.forall_mem_nil _
  | sign pos hop hoperand => exact List.forall_mem_singleton.mpr hoperand
  | arithmetic pos hleft hright => simpa [children] using ⟨hleft, hright⟩

/-- What a numeric expression is made of is numeric. -/
theorem of_mem_subtrees (h : e.IsNumeric vars) : ∀ node ∈ e.subtrees, node.IsNumeric vars :=
  forall_mem_subtrees (fun _ => of_mem_children) h

/-- The value of a numeric expression is a number, and an integer only if what its root is applied to
has integers as values. -/
theorem exists_number (h : e.IsNumeric vars) {value : Value} (heval : e.eval vars = .ok value) :
    ∃ n, value = .number n ∧ ∀ i, n = .integer i →
      ∀ child ∈ e.children, ∃ j, child.eval vars = .ok (.number (.integer j)) := by
  induction h generalizing value with
  | number n pos => exact ⟨n, (Except.ok.inj heval).symm, fun _ _ => List.forall_mem_nil _⟩
  | identifier pos hbound =>
    rw [eval_identifier, Variables.resolve, hbound] at heval
    exact ⟨_, (Except.ok.inj heval).symm, fun _ _ => List.forall_mem_nil _⟩
  | @sign op operand pos hop hoperand ih =>
    rw [eval_unary, bind_eq_ok_iff] at heval
    obtain ⟨value', hvalue, happly⟩ := heval
    obtain ⟨n, rfl, -⟩ := ih hvalue
    obtain ⟨result, hresult, hinteger⟩ := UnaryOp.exists_apply_number hop n pos
    refine ⟨result, Except.ok.inj (happly.symm.trans hresult), fun i hi => ?_⟩
    obtain ⟨j, rfl⟩ := hinteger i hi
    exact List.forall_mem_singleton.mpr ⟨j, hvalue⟩
  | @arithmetic op left right pos hleft hright ihleft ihright =>
    rw [eval_binary, bind_eq_ok_iff] at heval
    obtain ⟨leftValue, hleftValue, heval⟩ := heval
    rw [bind_eq_ok_iff] at heval
    obtain ⟨rightValue, hrightValue, happly⟩ := heval
    obtain ⟨m, rfl, -⟩ := ihleft hleftValue
    obtain ⟨n, rfl, -⟩ := ihright hrightValue
    rw [BinaryOp.apply, Arithmetic.apply_numbers] at happly
    split at happly
    · cases happly
    · refine ⟨_, (Except.ok.inj happly).symm, fun i hi => ?_⟩
      obtain ⟨⟨j, rfl⟩, k, rfl⟩ := Number.exists_combine_eq_integer hi
      simpa [children] using ⟨⟨j, hleftValue⟩, k, hrightValue⟩

/-- A numeric expression is at fault only where it divides by zero. -/
theorem fault?_eq_some (h : e.IsNumeric vars) {error : EvalError}
    (hfault : e.fault? vars = some error) :
    ∃ left right pos divisor, e = binary (.arithmetic .divide) left right pos ∧
      right.eval vars = .ok (.number divisor) ∧ divisor ∈ Number.zeros ∧
        error = .divisionByZero pos := by
  cases h with
  | number | identifier => cases hfault
  | @sign op operand pos hop hoperand =>
    rw [fault?] at hfault
    cases hvalue : operand.eval vars with
    | error error => simp [hvalue] at hfault
    | ok value =>
      obtain ⟨n, rfl, -⟩ := hoperand.exists_number hvalue
      rw [hvalue] at hfault
      cases op <;> cases hfault
  | @arithmetic op left right pos hleft hright =>
    rw [fault?] at hfault
    split at hfault
    · next a b ha hb =>
      obtain ⟨m, rfl, -⟩ := hleft.exists_number ha
      obtain ⟨n, rfl, -⟩ := hright.exists_number hb
      rw [BinaryOp.fault?, Arithmetic.fault?_numbers] at hfault
      split at hfault
      · next hzero =>
        obtain ⟨rfl, hzero⟩ := hzero
        exact ⟨left, right, pos, n, rfl, hb, hzero, (Option.some.inj hfault).symm⟩
      · cases hfault
    · cases hfault

end IsNumeric

/-- What becomes of a numeric expression. -/
structure Closed (vars : Variables) (e : Expr) : Prop where
  /-- There is a number, or a division by zero with its error. -/
  outcome : (∃ n, e.eval vars = .ok (.number n)) ∨
    ∃ left right pos divisor, binary (.arithmetic .divide) left right pos ∈ e.subtrees ∧
      right.eval vars = .ok (.number divisor) ∧ divisor ∈ Number.zeros ∧
        e.eval vars = .error (.divisionByZero pos)
  /-- An integer comes from nothing but integers, down to the leaves. -/
  integer : ∀ i, e.eval vars = .ok (.number (.integer i)) →
    ∀ node ∈ e.subtrees, ∃ j, node.eval vars = .ok (.number (.integer j))
  /-- An operator makes a double of one. -/
  float : ∀ node ∈ e.subtrees, ∀ operand ∈ node.children, ∀ x,
    operand.eval vars = .ok (.number (.float x)) →
      ∀ value, node.eval vars = .ok value → ∃ y, value = .number (.float y)
  /-- A remainder by zero is no number, and no error. -/
  remainder : ∀ left right pos m n,
    binary (.arithmetic .remainder) left right pos ∈ e.subtrees →
      left.eval vars = .ok (.number m) → right.eval vars = .ok (.number n) → n ∈ Number.zeros →
        (binary (.arithmetic .remainder) left right pos).eval vars =
          .ok (.number (.float Binary64.nan))

/-- Numeric expressions are closed. -/
theorem closed_of_isNumeric (h : e.IsNumeric vars) : Closed vars e := by
  refine ⟨?_, ?_, ?_, ?_⟩
  · cases heval : e.eval vars with
    | ok value =>
      obtain ⟨n, rfl, -⟩ := h.exists_number heval
      exact .inl ⟨n, rfl⟩
    | error error =>
      obtain ⟨node, hnode, hfault⟩ := exists_fault_of_eval heval
      obtain ⟨left, right, pos, divisor, rfl, hdivisor, hzero, rfl⟩ :=
        (h.of_mem_subtrees node hnode).fault?_eq_some hfault
      exact .inr ⟨left, right, pos, divisor, hnode, hdivisor, hzero, rfl⟩
  · intro i hi
    -- Both facts go down from a tree to those below its root together.
    have hdown := @forall_mem_subtrees
      (fun e => e.IsNumeric vars ∧ ∃ i, e.eval vars = .ok (.number (.integer i))) ?_ e ⟨h, i, hi⟩
    · exact fun node hnode => (hdown node hnode).2
    · rintro e ⟨h, i, hi⟩ child hchild
      obtain ⟨n, hn, hinteger⟩ := h.exists_number hi
      exact ⟨h.of_mem_children child hchild, hinteger i (Value.number.inj hn).symm child hchild⟩
  · intro node hnode operand hoperand x hx value hvalue
    obtain ⟨n, rfl, hinteger⟩ := (h.of_mem_subtrees node hnode).exists_number hvalue
    cases n with
    | float y => exact ⟨y, rfl⟩
    | integer i =>
      obtain ⟨j, hj⟩ := hinteger i rfl operand hoperand
      cases hx.symm.trans hj
  · intro left right pos m n hnode hleft hright hzero
    rw [eval_binary, hleft, hright]
    show Arithmetic.apply .remainder (.number m) (.number n) pos = _
    rw [Arithmetic.apply_numbers, if_neg (by simp), Number.combine_remainder_of_mem_zeros hzero]

/-- A remainder by zero, and behind it a division by the zero with a sign. -/
theorem closed_quotient_by_negative_zero :
    let vars : Variables := .ofList [("n", .number (.integer 5)), ("x", .number (.float 0.0))]
    let e : Expr := .binary (.arithmetic .divide)
      (.binary (.arithmetic .remainder) (.identifier "n" 0) (.number (.integer 0) 4) 2)
      (.unary .minus (.identifier "x" 9) 8) 6
    e.IsNumeric vars ∧ Closed vars e ∧ e.eval vars = .error (.divisionByZero 6) := by
  intro vars e
  have hn : vars.find? "n" = some (.number (.integer 5)) := by decide
  have hx : vars.find? "x" = some (.number (.float 0.0)) := by decide
  have hnumeric : e.IsNumeric vars :=
    .arithmetic 6 (.arithmetic 2 (.identifier 0 hn) (.number _ 4))
      (.sign 8 (by decide) (.identifier 9 hx))
  exact ⟨hnumeric, closed_of_isNumeric hnumeric, rfl⟩

end Expr

end ScalarExpr
