import ScalarExpr.Number
import ScalarExpr.Proofs.Number.Whole

/-!
# Exact results on integers

The exact results of the operators are defined on all integers. Where there is one that fits 64 bits
it is the result of the operator, and where the result is an integer otherwise it was found on
doubles.

A remainder always fits, but is not looked at if its quotient does not. The one pair of operands with
such a quotient has the same remainder on doubles.
-/

namespace ScalarExpr

/-- A 64-bit integer is found by its value. -/
theorem int64?_eq_some_iff {n : Int} {value : Int64} :
    int64? n = some value ↔ value.toInt = n := by
  unfold int64?
  constructor
  · intro h
    by_cases hrange : -2 ^ 63 ≤ n ∧ n < 2 ^ 63
    · rw [if_pos hrange, Option.some.injEq] at h
      rw [← h, Int64.toInt_ofInt_of_le hrange.1 hrange.2]
    · rw [if_neg hrange] at h
      cases h
  · rintro rfl
    rw [if_pos ⟨value.le_toInt, value.toInt_lt⟩, Int64.ofInt_toInt]

/-- Only what is out of range is no 64-bit integer. -/
theorem int64?_eq_none_iff {n : Int} : int64? n = none ↔ n < -2 ^ 63 ∨ 2 ^ 63 ≤ n := by
  unfold int64?
  by_cases hrange : -2 ^ 63 ≤ n ∧ n < 2 ^ 63
  · rw [if_pos hrange]
    constructor
    · nofun
    · omega
  · rw [if_neg hrange]
    constructor
    · omega
    · intro
      rfl

namespace Arithmetic

/-- A number is the exact result of an operator on integers: a quotient only if there is no rest, and
the remainder of the division that truncates. -/
def Exact : Arithmetic → Int → Int → Int → Prop
  | .add, a, b, n => n = a + b
  | .subtract, a, b, n => n = a - b
  | .multiply, a, b, n => n = a * b
  | .divide, a, b, n => b ≠ 0 ∧ n * b = a
  | .remainder, a, b, n => b ≠ 0 ∧ n = a.tmod b

/-- The result on integers is exact. -/
theorem exact_of_onIntegers? {op : Arithmetic} {a b n : Int} (h : op.onIntegers? a b = some n) :
    op.Exact a b n := by
  cases op with
  | add | subtract | multiply => exact (Option.some.inj h).symm
  | divide =>
    rw [onIntegers?] at h
    by_cases hdivides : b ≠ 0 ∧ a.tmod b = 0
    · rw [if_pos hdivides, Option.some.injEq] at h
      exact ⟨hdivides.1, h ▸ Int.tdiv_mul_cancel_of_tmod_eq_zero hdivides.2⟩
    · rw [if_neg hdivides] at h
      cases h
  | remainder =>
    rw [onIntegers?] at h
    by_cases hquotient : b ≠ 0 ∧ (int64? (a.tdiv b)).isSome
    · rw [if_pos hquotient, Option.some.injEq] at h
      exact ⟨hquotient.1, h.symm⟩
    · rw [if_neg hquotient] at h
      cases h

/-- An exact result is found on integers, except for a remainder whose quotient does not fit. -/
theorem onIntegers?_of_exact {op : Arithmetic} {a b n : Int} (h : op.Exact a b n) :
    op.onIntegers? a b = some n ∨ op = .remainder ∧ int64? (a.tdiv b) = none := by
  cases op with
  | add | subtract | multiply => exact .inl (congrArg some h.symm)
  | divide =>
    obtain ⟨hb, rfl⟩ := h
    refine .inl ?_
    rw [onIntegers?, if_pos ⟨hb, Int.mul_tmod_left n b⟩, Int.mul_tdiv_cancel n hb]
  | remainder =>
    obtain ⟨hb, rfl⟩ := h
    cases hquotient : int64? (a.tdiv b) with
    | none => exact .inr ⟨rfl, rfl⟩
    | some quotient =>
      refine .inl ?_
      rw [onIntegers?, hquotient, if_pos ⟨hb, rfl⟩]

/-- An operator has at most one exact result. -/
theorem Exact.unique {op : Arithmetic} {a b m n : Int} (hm : op.Exact a b m)
    (hn : op.Exact a b n) : m = n := by
  cases op with
  | add | subtract | multiply => exact hm.trans hn.symm
  | divide => exact Int.eq_of_mul_eq_mul_right hm.1 (hm.2.trans hn.2.symm)
  | remainder => exact hm.2.trans hn.2.symm

end Arithmetic

/-- The quotient of two 64-bit integers fits 64 bits, except for the least one by minus one. -/
theorem eq_of_int64?_tdiv_eq_none {a b : Int64} (hb : b.toInt ≠ 0)
    (h : int64? (a.toInt.tdiv b.toInt) = none) : a.toInt = -2 ^ 63 ∧ b.toInt = -1 := by
  have hlow := a.le_toInt
  have hhigh := a.toInt_lt
  rw [int64?_eq_none_iff] at h
  by_cases hone : b.toInt.natAbs = 1
  · rcases Int.natAbs_eq_iff.mp hone with hpos | hneg
    · rw [hpos, Nat.cast_one, Int.tdiv_one] at h
      omega
    · rw [hneg, Nat.cast_one, Int.tdiv_neg, Int.tdiv_one] at h
      omega
  · have hquotient : (a.toInt.tdiv b.toInt).natAbs ≤ a.toInt.natAbs / 2 := by
      rw [Int.natAbs_tdiv]
      exact Nat.div_le_div_left (by omega) (by decide)
    omega

/-- The size of a 64-bit integer. -/
theorem natAbs_toInt_le (a : Int64) : a.toInt.natAbs ≤ 2 ^ 63 := by
  have hlow := a.le_toInt
  have hhigh := a.toInt_lt
  omega

/-- What is not larger than a product of 64-bit integers is not too large to be rounded. -/
theorem lt_two_pow_1023 {m : Int} (h : m.natAbs ≤ 2 ^ 126) : m.natAbs < 2 ^ 1023 :=
  Nat.lt_of_le_of_lt h (pow_lt_pow_right₀ (by decide) (by decide))

/-- The double of a 64-bit integer is the whole number nearest to it, and no larger than they can
be. -/
theorem exists_whole?_ofInt (a : Int64) : ∃ whole,
    Binary64.whole? (Binary64.ofInt a.toInt) = some whole ∧
      Binary64.SignedRoundsTo a.toInt 1 whole ∧ whole.natAbs ≤ 2 ^ 63 := by
  have hsize := natAbs_toInt_le a
  have hnearest := Binary64.isNearest_ofInt (lt_two_pow_1023 (m := a.toInt) (by omega))
  obtain ⟨whole, hwhole⟩ := Binary64.exists_whole_of_isNearest hnearest
  have hrounds := Binary64.signedRoundsTo_of_isNearest Nat.one_pos hnearest hwhole
  have hle := hrounds.magnitude.le_of_ge (q := 1) (j := 63) Nat.one_pos (by decide) (by omega)
  exact ⟨whole, hwhole, hrounds, by omega⟩

/-- The double of a 64-bit integer is zero only for zero. -/
theorem isZero_ofInt (a : Int64) :
    Binary64.isZero (Binary64.ofInt a.toInt) = true ↔ a.toInt = 0 := by
  obtain ⟨whole, hwhole, hrounds, -⟩ := exists_whole?_ofInt a
  have hone : (Binary64.one : Int) ≠ 0 := Int.natCast_ne_zero.mpr (Nat.ne_of_gt Binary64.one_pos)
  rw [Binary64.isZero_iff, Binary64.whole?_eq_some_iff.mp hwhole, Option.some.injEq,
    Int.mul_eq_zero, or_iff_left hone, hrounds.eq_zero_iff]

namespace Number

/-- The opposite of a 64-bit integer is a 64-bit integer where it fits. -/
theorem negate_integer {value opposite : Int64} (h : opposite.toInt = -value.toInt) :
    (integer value).negate = .integer opposite := by
  rw [negate, int64?_eq_some_iff.mpr h]

/-- An exact result that fits is the result of the operator. -/
theorem operate?_of_exact {op : Arithmetic} {a b n : Int64}
    (h : op.Exact a.toInt b.toInt n.toInt) : operate? op (.integer a) (.integer b) = some (.integer n) := by
  have hdivisor : ¬ (op = .divide ∧ Binary64.isZero (toFloat (.integer b)) = true) := by
    rintro ⟨rfl, hzero⟩
    exact h.1 ((isZero_ofInt b).mp hzero)
  rw [operate?, if_neg hdivisor, combine]
  rcases Arithmetic.onIntegers?_of_exact h with hexact | ⟨rfl, hquotient⟩
  · rw [hexact, Option.bind_some, int64?_eq_some_iff.mpr rfl]
  · obtain ⟨ha, hb⟩ := eq_of_int64?_tdiv_eq_none h.1 hquotient
    have hn : n = 0 := by
      rw [← Int64.toInt_inj, h.2, ha, hb]
      rfl
    rw [ha, hb, hn]
    decide +kernel

/-- A double that is taken for an integer is that whole number. -/
theorem whole?_of_ofWhole {value : Float} {n : Int64} (h : ofWhole value = .integer n) :
    Binary64.whole? value = some n.toInt := by
  unfold ofWhole at h
  cases hwhole : (Binary64.whole? value).bind int64? with
  | none =>
    rw [hwhole] at h
    cases h
  | some m =>
    rw [hwhole, integer.injEq] at h
    obtain ⟨whole, hvalue, hm⟩ := Option.bind_eq_some_iff.mp hwhole
    rw [hvalue, ← int64?_eq_some_iff.mp hm, h]

/-- An integer that is not the exact result was found on doubles, and no other is exact. -/
theorem whole?_of_operate? {op : Arithmetic} {a b n : Int64}
    (h : operate? op (.integer a) (.integer b) = some (.integer n))
    (hexact : ¬ op.Exact a.toInt b.toInt n.toInt) :
    (∀ m : Int64, ¬ op.Exact a.toInt b.toInt m.toInt) ∧ (op = .divide → b.toInt ≠ 0) ∧
      Binary64.whole? (op.onFloats (Binary64.ofInt a.toInt) (Binary64.ofInt b.toInt)) =
        some n.toInt := by
  have hnone (m : Int64) : ¬ op.Exact a.toInt b.toInt m.toInt := by
    intro hm
    rw [operate?_of_exact hm, Option.some.injEq, integer.injEq] at h
    exact hexact (h ▸ hm)
  rw [operate?] at h
  by_cases hdivisor : op = .divide ∧ Binary64.isZero (toFloat (.integer b)) = true
  · rw [if_pos hdivisor] at h
    cases h
  · rw [if_neg hdivisor, Option.some.injEq, combine] at h
    refine ⟨hnone, fun hop hzero => hdivisor ⟨hop, (isZero_ofInt b).mpr hzero⟩, ?_⟩
    cases hintegers : (op.onIntegers? a.toInt b.toInt).bind int64? with
    | some m =>
      obtain ⟨value, hvalue, hm⟩ := Option.bind_eq_some_iff.mp hintegers
      rw [← int64?_eq_some_iff.mp hm] at hvalue
      exact absurd (Arithmetic.exact_of_onIntegers? hvalue) (hnone m)
    | none =>
      rw [hintegers] at h
      exact whole?_of_ofWhole h

end Number

end ScalarExpr
