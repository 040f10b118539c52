import ScalarExpr.Expr.Eval
import ScalarExpr.Proofs.Number.Canonical

/-!
# Laws of equality

Equality of values is made of two relations: two numbers are equal if their doubles are, and all other
pairs if their texts are. Each relation for itself is symmetric and transitive. A chain of equalities
goes through both of them only in two ways. With a number in the middle and a number at one end, the
doubles can be equal where the texts are not. And two doubles that are no numbers have one text, but
are not equal.

That numbers with one text are one number keeps all other chains together.
-/

namespace ScalarExpr

namespace Value

/-- Two values are equal by the operator, wherever it stands. -/
def Equals (a b : Value) : Prop :=
  ∀ offset rightOffset, BinaryOp.equal.apply a b offset rightOffset = .ok (.boolean true)

/-- A value is the double that is no number. -/
def IsNaN : Value → Prop
  | number (.float x) => x.isNaN = true
  | _ => False

/-- What the operators `==` and `!=` keep to on three values. -/
structure EqualityLaws (a b c : Value) : Prop where
  /-- It does not matter which value stands first. -/
  symmetric : a.Equals b ↔ b.Equals a
  /-- Two values are either equal or not, and unequal if they are not. -/
  negated : ∀ offset rightOffset, ∃ equal,
    BinaryOp.equal.apply a b offset rightOffset = .ok (.boolean equal) ∧
      BinaryOp.notEqual.apply a b offset rightOffset = .ok (.boolean (!equal))
  /-- A value is equal to itself unless it is no number. -/
  reflexive : a.Equals a ↔ ¬ a.IsNaN
  /-- Every value is equal to its text as a string. -/
  text : a.Equals (.string a.text)
  /-- Values that are equal to a third one are equal, except that a number in the middle may be equal
  to one number and one other value, and any other value to two doubles that are no numbers. -/
  transitive : a.Equals b → b.Equals c → a.Equals c ∨
    b.isNumeric = true ∧ a.isNumeric ≠ c.isNumeric ∨ a.IsNaN ∧ c.IsNaN ∧ b.isNumeric = false

section Cases

variable {a b c : Value}

/-- The operator answers what equality is. -/
theorem equals_iff : a.Equals b ↔ a.looselyEqual b = true := by
  have hanswer (offset rightOffset : Nat) :
      BinaryOp.equal.apply a b offset rightOffset = .ok (.boolean (a.looselyEqual b)) := rfl
  simp [Equals, hanswer]

/-- Numbers are equal if their doubles are. -/
theorem equals_number_iff {m n : Number} :
    (number m).Equals (number n) ↔ (m.toFloat == n.toFloat) = true := equals_iff

/-- Values of which one is no number are equal if their texts are. -/
theorem equals_iff_text_eq (h : a.isNumeric = false ∨ b.isNumeric = false) :
    a.Equals b ↔ a.text = b.text := by
  rw [equals_iff]
  unfold looselyEqual
  unfold isNumeric at h
  cases hm : a.number? with
  | none => exact beq_iff_eq
  | some m =>
    cases hn : b.number? with
    | none => exact beq_iff_eq
    | some n => simp [hm, hn] at h

/-- The double of a number is equal to itself unless it is no number. -/
theorem beq_toFloat_self_iff {n : Number} :
    (n.toFloat == n.toFloat) = true ↔ ¬ (number n).IsNaN := by
  rw [Binary64.beq_self_iff]
  cases n with
  | float x => exact (Bool.not_eq_true _).to_iff.symm
  | integer value =>
    obtain ⟨whole, hwhole, -⟩ := exists_whole?_ofInt value
    have hnumber := Binary64.isNaN_of_units? (Binary64.whole?_eq_some_iff.mp hwhole)
    exact iff_of_true hnumber id

/-- Equality is symmetric. -/
theorem Equals.symm (h : a.Equals b) : b.Equals a := by
  rcases numbers_or_other a b with ⟨m, n, rfl, rfl⟩ | hother
  · rw [equals_number_iff] at h ⊢
    rwa [Binary64.beq_comm]
  · rw [equals_iff_text_eq hother] at h
    exact (equals_iff_text_eq hother.symm).mpr h.symm

/-- A value is equal to itself unless it is no number. -/
theorem equals_self_iff : a.Equals a ↔ ¬ a.IsNaN := by
  cases a with
  | number n => exact equals_number_iff.trans beq_toFloat_self_iff
  | null | boolean | string => exact iff_of_true ((equals_iff_text_eq (.inl rfl)).mpr rfl) id

/-- Around a value that is no number, values with its text are equal unless they are no numbers. -/
theorem equals_of_text_eq (h : a.text = c.text) : a.Equals c ∨ a.IsNaN ∧ c.IsNaN := by
  rcases numbers_or_other a c with ⟨m, n, rfl, rfl⟩ | hother
  · obtain rfl := Number.text_injective h
    by_cases hnan : (number m).IsNaN
    · exact .inr ⟨hnan, hnan⟩
    · exact .inl (equals_self_iff.mpr hnan)
  · exact .inl ((equals_iff_text_eq hother).mpr h)

/-- Values that are equal to a number are equal if both are numbers or neither is. -/
theorem Equals.trans_number {n : Number} (hab : a.Equals (number n)) (hbc : (number n).Equals c)
    (h : a.isNumeric = c.isNumeric) : a.Equals c := by
  cases ha : a.isNumeric with
  | true =>
    obtain ⟨l, rfl⟩ := exists_number_of_isNumeric ha
    obtain ⟨m, rfl⟩ := exists_number_of_isNumeric (h ▸ ha)
    rw [equals_number_iff] at hab hbc ⊢
    exact Binary64.beq_trans hab hbc
  | false =>
    have hc : c.isNumeric = false := h ▸ ha
    rw [equals_iff_text_eq (.inl ha)] at hab ⊢
    rw [equals_iff_text_eq (.inr hc)] at hbc
    exact hab.trans hbc

end Cases

/-- Equality keeps to its laws on all values. -/
theorem equalityLaws (a b c : Value) : EqualityLaws a b c where
  symmetric := ⟨Equals.symm, Equals.symm⟩
  negated _ _ := ⟨a.looselyEqual b, rfl, rfl⟩
  reflexive := equals_self_iff
  text := (equals_iff_text_eq (.inr rfl)).mpr rfl
  transitive hab hbc := by
    cases hb : b.isNumeric with
    | false =>
      rw [equals_iff_text_eq (.inr hb)] at hab
      rw [equals_iff_text_eq (.inl hb)] at hbc
      rcases equals_of_text_eq (hab.trans hbc) with heq | ⟨ha, hc⟩
      · exact .inl heq
      · exact .inr (.inr ⟨ha, hc, rfl⟩)
    | true =>
      obtain ⟨n, rfl⟩ := exists_number_of_isNumeric hb
      by_cases h : a.isNumeric = c.isNumeric
      · exact .inl (hab.trans_number hbc h)
      · exact .inr (.inl ⟨rfl, h⟩)

/-- A number in the middle is equal to a number whose text is not that of the string. -/
example : (number (.float 1.0)).looselyEqual (number (.integer 1)) = true ∧
    (number (.integer 1)).looselyEqual (string "1") = true ∧
    (number (.float 1.0)).looselyEqual (string "1") = false := by decide +kernel

end Value

end ScalarExpr
