import ScalarExpr.Proofs.Number.Decoded
import ScalarExpr.Proofs.Number.Nearest

/-!
# How the machine rounds

The machine shifts a mantissa to the right and keeps two bits of what falls off: the last one, and
whether there was any before it. These are enough to round the whole fraction once, so each operation
gives the double nearest its exact result.

Numbers are counted in the smallest units that a double has, `2 ^ -1074`, and exponents from there.
-/

namespace ScalarExpr.Binary64

open Float.Model (Format UnpackedFloat totalExponent)
open Float.Model.UnpackedFloat (Sign ExtendedMantissa Accuracy accuracyOfFraction
  shiftToTargetExponent shiftToExponent roundWithAccuracy)

/-- The quotient of a fraction with the two bits behind it that rounding needs. -/
def extended (num den : Nat) : ExtendedMantissa :=
  ⟨num / den, decide (den ≤ 2 * (num % den)), decide (2 * num % den ≠ 0)⟩

section Extended

variable {num den : Nat}

/-- A whole number has no bits behind it. -/
theorem ofMantissaAndAccuracy_exact (mantissa : Nat) :
    ExtendedMantissa.ofMantissaAndAccuracy mantissa .exact = extended mantissa 1 := by
  simp [ExtendedMantissa.ofMantissaAndAccuracy, extended, Nat.mod_one]

/-- Doubling a fraction doubles its rest. -/
theorem two_mul_mod (num den : Nat) : 2 * num % den = 2 * (num % den) % den := by
  rw [Nat.mul_mod, Nat.mul_mod 2 (num % den), Nat.mod_mod]

/-- The rest of a division decides the bits behind the quotient. -/
theorem ofMantissaAndAccuracy_fraction (hden : 0 < den) :
    ExtendedMantissa.ofMantissaAndAccuracy (num / den) (accuracyOfFraction (num % den) den) =
      extended num den := by
  have hrest := Nat.mod_lt num hden
  unfold accuracyOfFraction extended
  rw [two_mul_mod]
  by_cases hzero : num % den = 0
  · rw [if_pos hzero, hzero]
    simp [ExtendedMantissa.ofMantissaAndAccuracy, Nat.pos_iff_ne_zero.mp hden]
  · rw [if_neg hzero]
    rcases Nat.lt_trichotomy (2 * (num % den)) den with hlt | heq | hgt
    · rw [Nat.compare_eq_lt.mpr hlt, Nat.mod_eq_of_lt hlt]
      simp [ExtendedMantissa.ofMantissaAndAccuracy, hlt, hzero]
    · rw [Nat.compare_eq_eq.mpr heq, heq, Nat.mod_self]
      simp [ExtendedMantissa.ofMantissaAndAccuracy]
    · have hrest' : 2 * (num % den) % den = 2 * (num % den) - den := by
        rw [Nat.mod_eq_sub_mod (Nat.le_of_lt hgt), Nat.mod_eq_of_lt (by omega)]
      rw [Nat.compare_eq_gt.mpr hgt, hrest']
      simp [ExtendedMantissa.ofMantissaAndAccuracy, Nat.le_of_lt hgt]
      omega

/-- One shift to the right halves the fraction. -/
theorem extended_shiftRightOne (hden : 0 < den) :
    (extended num den).shiftRightOne = extended num (den * 2) := by
  have hrest := Nat.mod_lt num hden
  have hparity := Nat.mod_two_eq_zero_or_one (num / den)
  have hround : (num / den % 2 != 0) = decide (den * 2 ≤ 2 * (num % (den * 2))) := by
    rw [Nat.mod_mul]
    rcases hparity with heven | hodd
    · rw [heven]
      simp
      omega
    · rw [hodd]
      simp
      omega
  have hsticky : (decide (den ≤ 2 * (num % den)) || decide (2 * num % den ≠ 0)) =
      decide (2 * num % (den * 2) ≠ 0) := by
    have hhalf : 2 * num % (den * 2) = 2 * (num % den) := by
      rw [Nat.mul_comm den 2, Nat.mul_mod_mul_left]
    rw [hhalf, two_mul_mod]
    by_cases hlt : 2 * (num % den) < den
    · rw [Nat.mod_eq_of_lt hlt]
      simp [Nat.not_le.mpr hlt]
    · have hpos : num % den ≠ 0 := by omega
      simp [Nat.not_lt.mp hlt, hpos]
  simp only [ExtendedMantissa.shiftRightOne, extended, hround, hsticky, Nat.div_div_eq_div_mul]

/-- A shift to the right divides the fraction by a power of two. -/
theorem extended_shiftRight (hden : 0 < den) (k : Nat) :
    extended num den >>> k = extended num (den * 2 ^ k) := by
  change k.repeat ExtendedMantissa.shiftRightOne (extended num den) = _
  induction k with
  | zero => rw [pow_zero, Nat.mul_one]; rfl
  | succ k ih =>
    rw [Nat.repeat, ih, extended_shiftRightOne (by positivity), pow_succ, Nat.mul_assoc]

/-- Rounding the quotient by the bits behind it rounds the fraction. -/
theorem extended_roundedMantissa (hden : 0 < den) :
    (extended num den).roundedMantissa = roundHalfEven num den := by
  have hrest := Nat.mod_lt num hden
  unfold roundHalfEven extended ExtendedMantissa.roundedMantissa ExtendedMantissa.accuracy
  dsimp only
  rw [two_mul_mod]
  rcases Nat.lt_trichotomy (2 * (num % den)) den with hlt | heq | hgt
  · rw [if_pos (.inl hlt), Nat.mod_eq_of_lt hlt, decide_eq_false (Nat.not_le.mpr hlt)]
    by_cases hzero : num % den = 0 <;> simp [hzero, Accuracy.roundToNearestEven]
  · rw [heq, Nat.mod_self]
    rcases Nat.mod_two_eq_zero_or_one (num / den) with heven | hodd <;>
      simp [*, Accuracy.roundToNearestEven]
  · have hrest' : 2 * (num % den) % den ≠ 0 := by
      rw [Nat.mod_eq_sub_mod (Nat.le_of_lt hgt), Nat.mod_eq_of_lt (by omega)]
      omega
    rw [if_neg (by omega), decide_eq_true (Nat.le_of_lt hgt), decide_eq_true hrest']
    rfl

end Extended

/-- A rounded mantissa at its step; one of 54 bits carries into the step. -/
def Decoded.ofRounded (negative : Bool) (mantissa step : Nat) : Decoded :=
  if mantissa = 2 ^ 53 then .finite negative (2 ^ 52) (step + 1) else .finite negative mantissa step

/-- The number of bits of a whole quotient gives the step of the fraction, also of one that has been
scaled by a power of two. -/
theorem stepOf_log2 {num den scale : Nat} (hden : 0 < den)
    (hbits : scale = 0 ∨ 2 ^ 52 ≤ num / den) :
    StepOf (num * 2 ^ scale) den ((num / den).log2 + scale - 52) := by
  have hquotient : num < den * 2 ^ ((num / den).log2 + 1) := by
    have hlt := (Nat.div_lt_iff_lt_mul hden).mp (Nat.lt_log2_self (n := num / den))
    rwa [Nat.mul_comm] at hlt
  refine ⟨?_, ?_⟩
  · calc num * 2 ^ scale < den * 2 ^ ((num / den).log2 + 1) * 2 ^ scale :=
        (Nat.mul_lt_mul_right (by positivity)).mpr hquotient
      _ = den * 2 ^ ((num / den).log2 + 1 + scale) := by rw [pow_add _ _ scale]; ring
      _ ≤ den * 2 ^ ((num / den).log2 + scale - 52 + 53) :=
        Nat.mul_le_mul_left _ (Nat.pow_le_pow_right (by decide) (by omega))
  · by_cases hzero : num / den = 0
    · have hscale : scale = 0 := by omega
      rw [hzero, hscale]
      exact .inl rfl
    · have hlow : den * 2 ^ (num / den).log2 ≤ num := by
        have hle := (Nat.le_div_iff_mul_le hden).mp (Nat.log2_self_le hzero)
        rwa [Nat.mul_comm] at hle
      have hlog : 2 ^ 52 ≤ num / den → 52 ≤ (num / den).log2 := (Nat.le_log2 hzero).mpr
      rcases Nat.eq_zero_or_pos ((num / den).log2 + scale - 52) with hfirst | hstep
      · exact .inl hfirst
      · refine .inr ?_
        have hsum : (num / den).log2 + scale - 52 + 52 = (num / den).log2 + scale := by omega
        rw [hsum, pow_add, ← Nat.mul_assoc]
        exact Nat.mul_le_mul_right _ hlow

/-- The machine keeps 53 bits, but counts in nothing smaller than units. -/
theorem targetExponent_binary64 (exponent : Int) :
    Format.binary64.targetExponent exponent = max (exponent - 53) (-1074) := rfl

/-- The exponent that the machine shifts a mantissa to. -/
theorem targetExponent_eq (mantissa scale : Nat) :
    Format.binary64.targetExponent (totalExponent mantissa (scale - 1074)) =
      ((mantissa.log2 + scale - 52 : Nat) : Int) - 1074 := by
  rw [targetExponent_binary64, totalExponent]
  omega

/-- The machine shifts a quotient to its step, never to the left. -/
theorem shiftToTargetExponent_eq {num den scale : Nat} {accuracy : Accuracy} (hden : 0 < den)
    (haccuracy : ExtendedMantissa.ofMantissaAndAccuracy (num / den) accuracy = extended num den) :
    shiftToTargetExponent Format.binary64 (num / den) (scale - 1074) accuracy =
      (extended num (den * 2 ^ ((num / den).log2 + scale - 52 - scale)),
        ((max ((num / den).log2 + scale - 52) scale : Nat) : Int) - 1074) := by
  have hshift : (((num / den).log2 + scale - 52 : Nat) - 1074 - ((scale : Int) - 1074)).toNat =
      (num / den).log2 + scale - 52 - scale := by
    omega
  unfold shiftToTargetExponent shiftToExponent
  dsimp only
  rw [targetExponent_eq, hshift, haccuracy, extended_shiftRight hden]
  exact Prod.ext rfl (by simp only; omega)

/-- A rounded mantissa needs no second shift, except to carry. -/
theorem shift_rounded {mantissa step : Nat} (h : mantissa ≤ 2 ^ 53) :
    shiftToTargetExponent Format.binary64 mantissa (step - 1074) .exact =
      if mantissa = 2 ^ 53 then (extended (2 ^ 53) 2, ((step + 1 : Nat) : Int) - 1074)
      else (extended mantissa 1, (step : Int) - 1074) := by
  have heq := @shiftToTargetExponent_eq mantissa 1 step .exact Nat.one_pos
    (by rw [Nat.div_one]; exact ofMantissaAndAccuracy_exact mantissa)
  rw [Nat.div_one] at heq
  rw [heq]
  by_cases hcarry : mantissa = 2 ^ 53
  · have hlog : mantissa.log2 = 53 := by rw [hcarry, Nat.log2_two_pow]
    have hstep : 53 + step - 52 = step + 1 := by omega
    rw [if_pos hcarry, hlog, hstep, hcarry, Nat.add_sub_cancel_left, Nat.max_eq_left (by omega)]
  · have hlog : mantissa.log2 ≤ 52 := by
      by_cases hzero : mantissa = 0
      · rw [hzero]
        decide
      · have := (Nat.log2_lt hzero).mpr (show mantissa < 2 ^ 53 by omega)
        omega
    have hstep : mantissa.log2 + step - 52 - step = 0 := by omega
    rw [if_neg hcarry, hstep, Nat.max_eq_right (by omega)]

/-- The machine rounds a fraction that it has divided to the nearest double. -/
theorem roundWithAccuracy_eq (negative : Bool) {num den scale : Nat} {accuracy : Accuracy}
    (hden : 0 < den)
    (haccuracy : ExtendedMantissa.ofMantissaAndAccuracy (num / den) accuracy = extended num den)
    (hbits : scale = 0 ∨ 2 ^ 52 ≤ num / den) :
    ∃ step, StepOf (num * 2 ^ scale) den step ∧
      roundWithAccuracy Format.binary64 (signOf negative) (num / den) (scale - 1074) accuracy =
        (Decoded.ofRounded negative (roundHalfEven (num * 2 ^ scale) (den * 2 ^ step))
          step).unpacked := by
  have hstep := stepOf_log2 hden hbits
  have hscale : scale ≤ (num / den).log2 + scale - 52 := by
    rcases hbits with hzero | hnormal
    · omega
    · have := (Nat.le_log2 (by omega)).mpr hnormal
      omega
  have hshift := @shiftToTargetExponent_eq num den scale accuracy hden haccuracy
  refine ⟨_, hstep, ?_⟩
  rw [Nat.max_eq_left hscale] at hshift
  generalize (num / den).log2 + scale - 52 = step at *
  obtain ⟨k, rfl⟩ := Nat.exists_eq_add_of_le hscale
  have hround : roundHalfEven (num * 2 ^ scale) (den * 2 ^ (scale + k)) =
      roundHalfEven num (den * 2 ^ k) := by
    have hpow : den * 2 ^ (scale + k) = 2 ^ scale * (den * 2 ^ k) := by rw [pow_add]; ring
    rw [hpow, Nat.mul_comm num, roundHalfEven_mul_mul (by positivity)]
  have hmantissa : roundHalfEven num (den * 2 ^ k) ≤ 2 ^ 53 := by
    rw [← hround]
    refine roundHalfEven_le (by positivity) (Nat.le_of_lt ?_)
    calc num * 2 ^ scale < den * 2 ^ (scale + k + 53) := hstep.lt
      _ = 2 ^ 53 * (den * 2 ^ (scale + k)) := by rw [pow_add]; ring
  rw [hround]
  unfold roundWithAccuracy
  rw [hshift, Nat.add_sub_cancel_left]
  dsimp only
  rw [extended_roundedMantissa (by positivity), shift_rounded hmantissa]
  generalize roundHalfEven num (den * 2 ^ k) = mantissa at *
  by_cases hcarry : mantissa = 2 ^ 53
  · rw [if_pos hcarry, Decoded.ofRounded, if_pos hcarry]
    have hpos : 0 < (extended (2 ^ 53) 2).mantissa := by decide
    exact (dif_neg (Nat.ne_of_gt hpos)).trans (Decoded.unpacked_finite hpos rfl rfl).symm
  · rw [if_neg hcarry, Decoded.ofRounded, if_neg hcarry]
    by_cases hzero : mantissa = 0
    · subst hzero
      exact dif_pos rfl
    · have hkept : (extended mantissa 1).mantissa = mantissa := Nat.div_one mantissa
      have hpos : 0 < (extended mantissa 1).mantissa := by omega
      exact (dif_neg (Nat.ne_of_gt hpos)).trans (Decoded.unpacked_finite hpos hkept rfl).symm

end ScalarExpr.Binary64
