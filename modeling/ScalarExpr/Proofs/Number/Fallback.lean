import ScalarExpr.Expr.Eval
import ScalarExpr.Proofs.Number.Error
import ScalarExpr.Proofs.Number.Exact

/-!
# Integers found on doubles

Where an operator on integers has no exact result that fits 64 bits, its result is found on doubles,
and a whole double that fits is taken for an integer. Such an integer is never the exact result, and
which there are is told by operator.

A sum or a difference can only be the least integer. A product that is too large comes out as another
integer only if an operand is not kept as a double, and so does a quotient that leaves a rest come
out whole. A remainder is exact whenever there is one.
-/

namespace ScalarExpr

/-- What an operator on integers can have as its integer result where no exact one fits 64 bits: the
least integer for a sum just below it, and for a product or a quotient a number within `2 ^ -51` of
it. -/
def Arithmetic.Misses : Arithmetic → Int → Int → Int → Prop
  | .add, a, b, n => -2 ^ 63 - 2048 ≤ a + b ∧ a + b < -2 ^ 63 ∧ n = -2 ^ 63
  | .subtract, a, b, n => -2 ^ 63 - 2048 ≤ a - b ∧ a - b < -2 ^ 63 ∧ n = -2 ^ 63
  | .multiply, a, b, n =>
    (a * b < -2 ^ 63 ∨ 2 ^ 63 ≤ a * b) ∧ 2 ^ 51 * (n - a * b).natAbs ≤ (a * b).natAbs ∧
      (n = -2 ^ 63 ∨ 2 ^ 53 < a.natAbs ∨ 2 ^ 53 < b.natAbs)
  | .divide, a, b, n =>
    b ≠ 0 ∧ ¬ b ∣ a ∧ 2 ^ 51 * (n * b - a).natAbs ≤ a.natAbs ∧
      (2 ^ 53 < a.natAbs ∨ 2 ^ 53 < b.natAbs)
  | .remainder, _, _, _ => False

section Operators

open Binary64

variable {a b n : Int64}

/-- What no 64-bit integer is equal to is out of their range. -/
theorem out_of_range {m : Int} (h : ∀ value : Int64, value.toInt ≠ m) : m < -2 ^ 63 ∨ 2 ^ 63 ≤ m := by
  rw [← int64?_eq_none_iff, Option.eq_none_iff_forall_ne_some]
  intro value hvalue
  exact h value (int64?_eq_some_iff.mp hvalue)

/-- A sum that does not fit is an integer on doubles only if it is just below the least one. -/
theorem misses_add
    (hwhole : whole? (ofInt a.toInt + ofInt b.toInt) = some n.toInt)
    (hout : ∀ m : Int64, m.toInt ≠ a.toInt + b.toInt) :
    Arithmetic.add.Misses a.toInt b.toInt n.toInt := by
  obtain ⟨A, hA, ha, hAle⟩ := exists_whole?_ofInt a
  obtain ⟨B, hB, hb, hBle⟩ := exists_whole?_ofInt b
  have hnearest := isNearest_whole_add hA hB (lt_two_pow_1023 (by omega))
  have hn := signedRoundsTo_of_isNearest Nat.one_pos hnearest hwhole
  exact ha.eq_of_add hb hn (natAbs_toInt_le a) (natAbs_toInt_le b) n.le_toInt n.toInt_lt
    (out_of_range hout)

/-- A difference that does not fit is an integer on doubles only if it is just below the least
one. -/
theorem misses_subtract
    (hwhole : whole? (ofInt a.toInt - ofInt b.toInt) = some n.toInt)
    (hout : ∀ m : Int64, m.toInt ≠ a.toInt - b.toInt) :
    Arithmetic.subtract.Misses a.toInt b.toInt n.toInt := by
  obtain ⟨A, hA, ha, hAle⟩ := exists_whole?_ofInt a
  obtain ⟨B, hB, hb, hBle⟩ := exists_whole?_ofInt b
  have hnearest := isNearest_whole_sub hA hB (lt_two_pow_1023 (by omega))
  have hn := signedRoundsTo_of_isNearest Nat.one_pos hnearest hwhole
  have hopposite : (-b.toInt).natAbs ≤ 2 ^ 63 := by
    rw [Int.natAbs_neg]
    exact natAbs_toInt_le b
  exact ha.eq_of_add hb.neg hn (natAbs_toInt_le a) hopposite n.le_toInt n.toInt_lt
    (out_of_range hout)

/-- A product that does not fit is an integer on doubles only close to it. -/
theorem misses_multiply
    (hwhole : whole? (ofInt a.toInt * ofInt b.toInt) = some n.toInt)
    (hout : ∀ m : Int64, m.toInt ≠ a.toInt * b.toInt) :
    Arithmetic.multiply.Misses a.toInt b.toInt n.toInt := by
  obtain ⟨A, hA, ha, hAle⟩ := exists_whole?_ofInt a
  obtain ⟨B, hB, hb, hBle⟩ := exists_whole?_ofInt b
  have hrange := out_of_range hout
  have hane : a.toInt ≠ 0 := by
    intro h
    rw [h] at hrange
    omega
  have hbne : b.toInt ≠ 0 := by
    intro h
    rw [h] at hrange
    omega
  have hABle : (A * B).natAbs ≤ 2 ^ 126 := by
    calc (A * B).natAbs = A.natAbs * B.natAbs := Int.natAbs_mul A B
      _ ≤ 2 ^ 63 * 2 ^ 63 := Nat.mul_le_mul hAle hBle
      _ = 2 ^ 126 := (pow_add 2 63 63).symm
  have hnearest := isNearest_whole_mul hA hB (mt ha.eq_zero_iff.mp hane) (mt hb.eq_zero_iff.mp hbne)
    (lt_two_pow_1023 hABle)
  have hn := signedRoundsTo_of_isNearest Nat.one_pos hnearest hwhole
  refine ⟨hrange, ha.mul_error hb hn hane hbne, ?_⟩
  by_cases hkept : a.toInt.natAbs ≤ 2 ^ 53 ∧ b.toInt.natAbs ≤ 2 ^ 53
  · -- Only the product is rounded here, and it does not get below a power of two.
    rw [ha.eq_of_le hkept.1, hb.eq_of_le hkept.2] at hn
    have hlarge := hn.magnitude.le_of_le (q := 1) (j := 63) Nat.one_pos (by decide) (by omega)
    have hlow := n.le_toInt
    have hhigh := n.toInt_lt
    omega
  · omega

/-- The quotient of the least integer and minus one is too large on doubles as well. -/
theorem not_dvd_of_divide (hwhole : whole? (ofInt a.toInt / ofInt b.toInt) = some n.toInt)
    (hbne : b.toInt ≠ 0) (hout : ∀ m : Int64, m.toInt * b.toInt ≠ a.toInt) :
    ¬ b.toInt ∣ a.toInt := by
  rintro ⟨quotient, hquotient⟩
  have hnone : int64? (a.toInt.tdiv b.toInt) = none := by
    rw [hquotient, Int.mul_tdiv_cancel_left quotient hbne, int64?_eq_none_iff]
    refine out_of_range fun value hvalue => hout value ?_
    rw [hvalue, hquotient, Int.mul_comm]
  obtain ⟨ha, hb⟩ := eq_of_int64?_tdiv_eq_none hbne hnone
  have hlarge : whole? (ofInt (-2 ^ 63) / ofInt (-1)) = some (2 ^ 63) := by decide +kernel
  rw [ha, hb, hlarge, Option.some.injEq] at hwhole
  exact Int.ne_of_gt n.toInt_lt hwhole

/-- A quotient that leaves a rest is an integer on doubles only close to it. -/
theorem misses_divide (hwhole : whole? (ofInt a.toInt / ofInt b.toInt) = some n.toInt)
    (hbne : b.toInt ≠ 0) (hout : ∀ m : Int64, m.toInt * b.toInt ≠ a.toInt) :
    Arithmetic.divide.Misses a.toInt b.toInt n.toInt := by
  obtain ⟨A, hA, ha, hAle⟩ := exists_whole?_ofInt a
  obtain ⟨B, hB, hb, -⟩ := exists_whole?_ofInt b
  have hrest := not_dvd_of_divide hwhole hbne hout
  have hane : a.toInt ≠ 0 := fun h => hrest (h ▸ Int.dvd_zero b.toInt)
  have hAne : A ≠ 0 := mt ha.eq_zero_iff.mp hane
  have hBne : B ≠ 0 := mt hb.eq_zero_iff.mp hbne
  have hnearest := isNearest_whole_div hA hB hAne hBne (lt_two_pow_1023 (by omega))
  have hn := signedRoundsTo_of_isNearest (Int.natAbs_pos.mpr hBne) hnearest hwhole
  refine ⟨hbne, hrest, ha.div_error hb hn hane hbne (natAbs_toInt_le b), ?_⟩
  by_contra hkept
  -- Both operands are kept here, so that a whole quotient would be exact.
  rw [ha.eq_of_le (by omega), hb.eq_of_le (by omega)] at hn
  exact hout n (hn.mul_eq_of_le hane hbne (by omega) (by omega))

/-- A remainder by zero is no integer. -/
theorem whole?_remainder_of_isZero {x y : Float} (hy : isZero y = true) :
    whole? (remainder x y) = none := by
  rw [remainder_of_isZero hy]
  decide +kernel

/-- A remainder is never an integer that is not exact. -/
theorem false_of_remainder
    (hwhole : whole? (remainder (ofInt a.toInt) (ofInt b.toInt)) = some n.toInt)
    (hout : ∀ m : Int64, ¬ Arithmetic.remainder.Exact a.toInt b.toInt m.toInt) : False := by
  by_cases hbne : b.toInt = 0
  · rw [whole?_remainder_of_isZero ((isZero_ofInt b).mpr hbne)] at hwhole
    cases hwhole
  · have hlt : (a.toInt.tmod b.toInt).natAbs < 2 ^ 63 := by
      rw [Int.natAbs_tmod]
      exact Nat.lt_of_lt_of_le (Nat.mod_lt _ (Int.natAbs_pos.mpr hbne)) (natAbs_toInt_le b)
    exact hout (.ofInt (a.toInt.tmod b.toInt))
      ⟨hbne, Int64.toInt_ofInt_of_le (by omega) (by omega)⟩

end Operators

/-- An integer that an operator on integers gives is the exact result, or no exact result fits and it
is one of the few that can come out near one. -/
theorem exact_or_misses_of_apply {op : Arithmetic} {a b n : Int64} {offset : Nat}
    (h : op.apply (.number (.integer a)) (.number (.integer b)) offset =
      .ok (.number (.integer n))) :
    op.Exact a.toInt b.toInt n.toInt ∨
      (∀ m : Int64, ¬ op.Exact a.toInt b.toInt m.toInt) ∧ op.Misses a.toInt b.toInt n.toInt := by
  have hresult : Number.operate? op (.integer a) (.integer b) = some (.integer n) := by
    simp only [Arithmetic.apply, Value.number?] at h
    cases hoperate : Number.operate? op (.integer a) (.integer b) with
    | none =>
      rw [hoperate] at h
      cases h
    | some result =>
      rw [hoperate] at h
      cases h
      rfl
  by_cases hexact : op.Exact a.toInt b.toInt n.toInt
  · exact .inl hexact
  · obtain ⟨hout, hdivisor, hwhole⟩ := Number.whole?_of_operate? hresult hexact
    refine .inr ⟨hout, ?_⟩
    cases op with
    | add => exact misses_add hwhole hout
    | subtract => exact misses_subtract hwhole hout
    | multiply => exact misses_multiply hwhole hout
    | divide =>
      have hbne := hdivisor rfl
      exact misses_divide hwhole hbne fun m hm => hout m ⟨hbne, hm⟩
    | remainder => exact false_of_remainder hwhole hout

/-- A quotient that is not exact and comes out as an integer although it leaves a rest. -/
theorem misses_quotient_by_two :
    Arithmetic.divide.apply (.number (.integer 9007199254740993)) (.number (.integer 2)) 0 =
      .ok (.number (.integer 4503599627370496)) ∧
    (Arithmetic.divide.Exact (9007199254740993 : Int64).toInt (2 : Int64).toInt
        (4503599627370496 : Int64).toInt ∨
      (∀ m : Int64, ¬ Arithmetic.divide.Exact (9007199254740993 : Int64).toInt (2 : Int64).toInt
        m.toInt) ∧
      Arithmetic.divide.Misses (9007199254740993 : Int64).toInt (2 : Int64).toInt
        (4503599627370496 : Int64).toInt) := by
  have hresult : Arithmetic.divide.apply (.number (.integer 9007199254740993))
      (.number (.integer 2)) 0 = .ok (.number (.integer 4503599627370496)) := by decide +kernel
  exact ⟨hresult, exact_or_misses_of_apply hresult⟩

/-- Of every operator but the remainder there is an integer result that is not exact. -/
theorem inexact_integer_results :
    (Arithmetic.add.apply (.number (.integer Int64.minValue)) (.number (.integer (-1))) 0 =
        .ok (.number (.integer Int64.minValue)) ∧
      ¬ Arithmetic.add.Exact Int64.minValue.toInt (-1 : Int64).toInt Int64.minValue.toInt) ∧
    (Arithmetic.subtract.apply (.number (.integer Int64.minValue)) (.number (.integer 1)) 0 =
        .ok (.number (.integer Int64.minValue)) ∧
      ¬ Arithmetic.subtract.Exact Int64.minValue.toInt (1 : Int64).toInt
        Int64.minValue.toInt) ∧
    (Arithmetic.multiply.apply (.number (.integer 103)) (.number (.integer 89547301328687144)) 0 =
        .ok (.number (.integer 9223372036854774784)) ∧
      ¬ Arithmetic.multiply.Exact (103 : Int64).toInt (89547301328687144 : Int64).toInt
        (9223372036854774784 : Int64).toInt) ∧
    (Arithmetic.divide.apply (.number (.integer 9007199254740993)) (.number (.integer 2)) 0 =
        .ok (.number (.integer 4503599627370496)) ∧
      ¬ Arithmetic.divide.Exact (9007199254740993 : Int64).toInt (2 : Int64).toInt
        (4503599627370496 : Int64).toInt) := by
  refine ⟨⟨by decide +kernel, ?_⟩, ⟨by decide +kernel, ?_⟩, ⟨by decide +kernel, ?_⟩,
    ⟨by decide +kernel, ?_⟩⟩
  all_goals
    unfold Arithmetic.Exact
    decide

end ScalarExpr
