import ScalarExpr.Proofs.Json.Written
import ScalarExpr.Proofs.Number.Order
import ScalarExpr.Proofs.Number.Overflow

/-!
# Where canonical text is positional

Canonical text looks at the power of ten of the first digit. A larger number is not rounded to a smaller
double, and the doubles nearest a thousandth and ten million have these as their shortest decimals. So
the power of the first digit is in range exactly if the double is not below the first of these two doubles
and is below the second.
-/

namespace ScalarExpr.Binary64

namespace Decimal

variable {decimal : Decimal} {power : Int}

/-- A decimal has as many digits as its significand needs. -/
theorem significand_bounds (h : 0 < decimal.significand) :
    10 ^ ((Nat.toDigits 10 decimal.significand).length - 1) ≤ decimal.significand ∧
      decimal.significand < 10 ^ (Nat.toDigits 10 decimal.significand).length := by
  have hlength : 0 < (Nat.toDigits 10 decimal.significand).length := Nat.length_toDigits_pos
  refine ⟨?_, (Nat.length_toDigits_le_iff (by decide) hlength).mp (Nat.le_refl _)⟩
  rcases Nat.eq_or_lt_of_le (Nat.succ_le_of_lt hlength) with hone | hmore
  · rw [← hone]
    exact h
  · by_contra hlt
    have := (Nat.length_toDigits_le_iff (b := 10) (by decide) (by omega)).mpr (Nat.not_le.mp hlt)
    omega

/-- A decimal is not below the power of ten that its first digit stands for. -/
theorem le_of_le_leading (hpos : 0 < decimal.significand) (h : power ≤ decimal.leading) :
    10 ^ power.toNat * 10 ^ (-decimal.exponent).toNat ≤
      decimal.significand * 10 ^ decimal.exponent.toNat * 10 ^ (-power).toNat := by
  have hlength : 0 < (Nat.toDigits 10 decimal.significand).length := Nat.length_toDigits_pos
  unfold leading at h
  calc
    10 ^ power.toNat * 10 ^ (-decimal.exponent).toNat
      = 10 ^ (power.toNat + (-decimal.exponent).toNat) := (Nat.pow_add ..).symm
    _ ≤ 10 ^ ((Nat.toDigits 10 decimal.significand).length - 1 + decimal.exponent.toNat +
          (-power).toNat) := Nat.pow_le_pow_right (by decide) (by omega)
    _ = 10 ^ ((Nat.toDigits 10 decimal.significand).length - 1) * 10 ^ decimal.exponent.toNat *
          10 ^ (-power).toNat := by rw [Nat.pow_add, Nat.pow_add]
    _ ≤ decimal.significand * 10 ^ decimal.exponent.toNat * 10 ^ (-power).toNat :=
      Nat.mul_le_mul_right _ (Nat.mul_le_mul_right _ (significand_bounds hpos).1)

/-- A decimal is below the powers of ten that are above its first digit. -/
theorem le_of_leading_lt (hpos : 0 < decimal.significand) (h : decimal.leading < power) :
    decimal.significand * 10 ^ decimal.exponent.toNat * 10 ^ (-power).toNat ≤
      10 ^ power.toNat * 10 ^ (-decimal.exponent).toNat := by
  unfold leading at h
  calc
    decimal.significand * 10 ^ decimal.exponent.toNat * 10 ^ (-power).toNat
      ≤ 10 ^ (Nat.toDigits 10 decimal.significand).length * 10 ^ decimal.exponent.toNat *
          10 ^ (-power).toNat :=
        Nat.mul_le_mul_right _ (Nat.mul_le_mul_right _ (Nat.le_of_lt (significand_bounds hpos).2))
    _ = 10 ^ ((Nat.toDigits 10 decimal.significand).length + decimal.exponent.toNat +
          (-power).toNat) := by rw [Nat.pow_add, Nat.pow_add]
    _ ≤ 10 ^ (power.toNat + (-decimal.exponent).toNat) :=
      Nat.pow_le_pow_right (by decide) (by omega)
    _ = 10 ^ power.toNat * 10 ^ (-decimal.exponent).toNat := Nat.pow_add ..

end Decimal

section Leading

variable {x y : Float} {a b : Bool} {m n s t : Nat} {tie : Tie} {power : Int}

/-- The first digit of a double stands for a power of ten or a higher one exactly if the double is not
below the one that has this power as its shortest decimal. -/
theorem le_leading_iff (hx : decode x = .finite a m s) (hm : 0 < m) (hy : decode y = .finite b n t)
    (hn : 0 < n) (hten : shortest tie n t = ⟨1, power⟩) :
    power ≤ (shortest tie m s).leading ↔ n * 2 ^ t ≤ m * 2 ^ s := by
  have hcanonical : (decode x).Canonical := canonical_decodeBits _
  have hcanonical' : (decode y).Canonical := canonical_decodeBits _
  rw [hx] at hcanonical
  rw [hy] at hcanonical'
  obtain ⟨hmantissa, hstep, hnormal⟩ := hcanonical
  obtain ⟨hmantissa', hstep', hnormal'⟩ := hcanonical'
  have hdecimal := holdsDecimal_shortest tie hm hmantissa (by omega : s < 2046)
  have hdecimal' := holdsDecimal_shortest tie hn hmantissa' (by omega : t < 2046)
  have hpos := significand_pos_of_holdsDecimal hm hdecimal
  have hnearest := nearest_of_holdsDecimal hx hm hdecimal
  have hnearest' := nearest_of_holdsDecimal hy hn hdecimal'
  rw [hten, Nat.one_mul] at hnearest'
  dsimp only at hnearest'
  constructor
  · intro hle
    have hvalue := Nat.mul_le_mul_right one (Decimal.le_of_le_leading hpos hle)
    rw [Nat.mul_right_comm _ _ one, Nat.mul_right_comm _ (10 ^ (-power).toNat) one] at hvalue
    exact hnearest'.mono hnearest (Nat.pow_pos (by decide)) (Nat.pow_pos (by decide)) hvalue
  · intro hle
    by_contra hlt
    have hvalue := Nat.mul_le_mul_right one (Decimal.le_of_leading_lt hpos (Int.not_le.mp hlt))
    rw [Nat.mul_right_comm _ (10 ^ (-power).toNat) one,
      Nat.mul_right_comm (10 ^ power.toNat) _ one] at hvalue
    have hge := hnearest.mono hnearest' (Nat.pow_pos (by decide)) (Nat.pow_pos (by decide)) hvalue
    -- the double is the one whose shortest decimal is the power
    obtain ⟨rfl, rfl⟩ := mantissa_unique (Nat.le_antisymm hge hle) hmantissa hnormal hmantissa' hnormal'
    refine hlt ?_
    have hdigits : (Nat.toDigits 10 1).length = 1 := rfl
    rw [hten, Decimal.leading, hdigits]
    dsimp only
    omega

end Leading

/-- A double is zero, or its size is from a thousandth up to below ten million. -/
def IsPlain (x : Float) : Prop := x = 0.0 ∨ x = -0.0 ∨ 1e-3 ≤ x.abs ∧ x.abs < 1e7

instance (x : Float) : Decidable (IsPlain x) :=
  inferInstanceAs (Decidable (x = 0.0 ∨ x = -0.0 ∨ 1e-3 ≤ x.abs ∧ x.abs < 1e7))

/-- The double nearest a thousandth has this as its shortest decimal, and ten million, which is a double,
has itself. -/
theorem exists_decode_bounds :
    (∃ mantissa step, decode 1e-3 = .finite false mantissa step ∧ 0 < mantissa ∧
      shortest .up mantissa step = ⟨1, -3⟩) ∧
      ∃ mantissa step, decode 1e7 = .finite false mantissa step ∧ 0 < mantissa ∧
        shortest .up mantissa step = ⟨1, 7⟩ :=
  ⟨⟨4611686018427388, 1012, by decide +kernel⟩, ⟨5368709120000000, 1045, by decide +kernel⟩⟩

/-- A double without a sign has as many units as its mantissa says. -/
theorem units?_of_decode {x : Float} {mantissa step : Nat} (h : decode x = .finite false mantissa step) :
    units? x = some ((mantissa * 2 ^ step : Nat) : Int) := by
  rw [units?, h]
  rfl

/-- A finite double is plain exactly if it is zero or its canonical text is positional. -/
theorem isPlain_iff {x : Float} {negative : Bool} {mantissa step : Nat}
    (h : decode x = .finite negative mantissa step) :
    IsPlain x ↔ mantissa = 0 ∨
      -3 ≤ (shortest .up mantissa step).leading ∧ (shortest .up mantissa step).leading < 7 := by
  obtain ⟨⟨low, lowStep, hlow, hlowPos, hlowTen⟩, high, highStep, hhigh, hhighPos, hhighTen⟩ :=
    exists_decode_bounds
  have hsize : decode x.abs = .finite false mantissa step := by
    rw [decode_abs, h]
    rfl
  have hunits := units?_of_decode hsize
  have hzero : x = 0.0 ∨ x = -0.0 ↔ mantissa = 0 := by
    rw [← isZero_iff_eq, isZero_iff_decode, h]
    rfl
  rw [IsPlain, ← or_assoc, hzero, le_iff_units (units?_of_decode hlow) hunits,
    lt_iff_units hunits (units?_of_decode hhigh), Int.ofNat_le, Int.ofNat_lt]
  rcases Nat.eq_zero_or_pos mantissa with hnone | hpos
  · exact iff_of_true (.inl hnone) (.inl hnone)
  · rw [le_leading_iff h hpos hlow hlowPos hlowTen, ← Int.not_le,
      le_leading_iff h hpos hhigh hhighPos hhighTen, Nat.not_le]

/-- What is not finite is not plain. -/
theorem not_isPlain_of_units? {x : Float} (h : units? x = none) : ¬ IsPlain x := by
  have hnan : ¬ IsPlain nan := by decide
  have hinfinity (negative : Bool) : ¬ IsPlain (ofMagnitude negative infinityBits) := by
    cases negative <;> decide
  unfold units? at h
  cases hdecode : decode x with
  | nan =>
    have hsame : x = nan := decode_injective (hdecode.trans rfl)
    rwa [hsame]
  | infinity negative =>
    have hsame : x = ofMagnitude negative infinityBits :=
      decode_injective (hdecode.trans (decode_ofMagnitude_infinityBits negative).symm)
    rw [hsame]
    exact hinfinity negative
  | finite negative mantissa step =>
    rw [hdecode] at h
    cases h

end ScalarExpr.Binary64
