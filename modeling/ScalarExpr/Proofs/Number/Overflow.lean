import ScalarExpr.Proofs.Number.Equality

/-!
# Rounding to infinity

The greatest double has a mantissa of ones at the last step. What is less than half of this step above
it is rounded to it or below, and everything else to infinity, since the half goes to the even neighbour,
which would be `2 ^ 1024`.

So the double nearest a fraction is known for all fractions. The reading of decimals, which does without
the powers of ten where a decimal is far too large or too small, gives the same double everywhere.
-/

namespace ScalarExpr

/-- What is less than half above a number is not rounded above it. -/
theorem roundHalfEven_le_of_lt {num den q : Nat} (hden : 0 < den)
    (h : 2 * num < (2 * q + 1) * den) : roundHalfEven num den ≤ q := by
  obtain ⟨-, hnear⟩ := roundHalfEven_near num den hden
  by_contra hlt
  have hmore : 2 * (q + 1) * den ≤ 2 * roundHalfEven num den * den :=
    Nat.mul_le_mul_right _ (by omega)
  have hexpand : 2 * (q + 1) * den = (2 * q + 1) * den + den := by ring
  omega

namespace Binary64

section Nearest

variable {num den magnitude : Nat}

/-- Every fraction has a nearest number of units. -/
theorem exists_nearest (num : Nat) (hden : 0 < den) : ∃ magnitude, Nearest (num * one) den magnitude := by
  rcases Nat.eq_zero_or_pos num with rfl | hnum
  · refine ⟨_, 0, ⟨?_, .inl rfl⟩, rfl⟩
    rw [Nat.zero_mul]
    exact Nat.mul_pos hden (Nat.two_pow_pos _)
  · obtain ⟨step, hstep, -⟩ := exists_stepOf_magnitudeBits hnum hden
    exact ⟨_, step, hstep, rfl⟩

/-- A fraction is rounded to less than a power of two exactly if it is below it by more than half a unit
of its last place. -/
theorem Nearest.lt_two_pow_iff {j : Nat} (h : Nearest num den magnitude) (hden : 0 < den) :
    magnitude < 2 ^ (j + 54) ↔ num < (2 ^ (54 : Nat) - 1) * 2 ^ j * den := by
  constructor
  · intro hlt
    by_contra hge
    have := h.two_pow_le hden (Nat.not_lt.mp hge)
    omega
  · intro hlt
    rcases Nat.lt_or_ge num (den * 2 ^ (j + 53)) with hsmall | hlarge
    · have hle : magnitude ≤ 2 ^ (53 : Nat) * 2 ^ j := by
        refine h.le_of_ge hden (Nat.le_refl _) (Nat.le_of_lt ?_)
        calc
          num < den * 2 ^ (j + 53) := hsmall
          _ = 2 ^ (53 : Nat) * 2 ^ j * den := by rw [Nat.pow_add]; ring
      have hpower : 2 ^ (j + 54) = 2 * (2 ^ (53 : Nat) * 2 ^ j) := by
        rw [Nat.pow_add]
        ring
      have := Nat.mul_pos (Nat.two_pow_pos 53) (Nat.two_pow_pos j)
      omega
    · obtain ⟨step, hstep, rfl⟩ := h
      have hlast : StepOf num den (j + 1) := by
        refine ⟨hlt.trans_le ?_, .inr hlarge⟩
        calc
          (2 ^ (54 : Nat) - 1) * 2 ^ j * den ≤ 2 ^ (54 : Nat) * 2 ^ j * den :=
            Nat.mul_le_mul_right _ (Nat.mul_le_mul_right _ (Nat.sub_le ..))
          _ = den * 2 ^ (j + 1 + 53) := by rw [Nat.pow_add, Nat.pow_add]; ring
      obtain rfl := hstep.unique hlast
      have hhalf : 2 * num < (2 * (2 ^ (53 : Nat) - 1) + 1) * (den * 2 ^ (j + 1)) := by
        calc
          2 * num < 2 * ((2 ^ (54 : Nat) - 1) * 2 ^ j * den) := Nat.mul_lt_mul_of_pos_left hlt (by decide)
          _ = (2 * (2 ^ (53 : Nat) - 1) + 1) * (den * 2 ^ (j + 1)) := by rw [Nat.pow_succ]; ring
      have hrounded := roundHalfEven_le_of_lt (Nat.mul_pos hden (Nat.two_pow_pos _)) hhalf
      calc
        roundHalfEven num (den * 2 ^ (j + 1)) * 2 ^ (j + 1)
          ≤ (2 ^ (53 : Nat) - 1) * 2 ^ (j + 1) := Nat.mul_le_mul_right _ hrounded
        _ < 2 ^ (53 : Nat) * 2 ^ (j + 1) := Nat.mul_lt_mul_of_pos_right (by decide) (Nat.two_pow_pos _)
        _ = 2 ^ (j + 54) := by rw [← Nat.pow_add]; congr 1; omega

/-- What is rounded to less than `2 ^ 1024` is rounded to a mantissa and a step that fit into bits. -/
theorem Nearest.exists_canonical (negative : Bool) (h : Nearest num den magnitude) (hden : 0 < den)
    (hlt : magnitude < 2 ^ 2098) :
    ∃ mantissa step, (Decoded.finite negative mantissa step).Canonical ∧
      magnitude = mantissa * 2 ^ step := by
  obtain ⟨step, hstep, rfl⟩ := h
  obtain ⟨hhigh, hnormal⟩ := hstep.rounded hden
  generalize roundHalfEven num (den * 2 ^ step) = mantissa at hlt hhigh hnormal
  -- The exponent is named, so that the power is not evaluated.
  obtain ⟨last, hlast⟩ : ∃ last, last = 2098 := ⟨2098, rfl⟩
  rw [← hlast] at hlt
  have hfits {bits : Nat} (hbits : 2 ^ bits ≤ mantissa) : bits + step < last := by
    have hpow : 2 ^ (bits + step) < 2 ^ last := by
      calc
        2 ^ (bits + step) = 2 ^ bits * 2 ^ step := Nat.pow_add ..
        _ ≤ mantissa * 2 ^ step := Nat.mul_le_mul_right _ hbits
        _ < 2 ^ last := hlt
    exact (Nat.pow_lt_pow_iff_right Nat.one_lt_two).mp hpow
  rcases Nat.lt_or_eq_of_le hhigh with hmantissa | rfl
  · refine ⟨mantissa, step, ⟨hmantissa, ?_, hnormal⟩, rfl⟩
    rcases hnormal with hzero | hle
    · omega
    · have := hfits hle
      omega
  · have hcarried := hfits (Nat.le_refl (2 ^ 53))
    exact ⟨2 ^ 52, step + 1, ⟨by decide, by omega, .inr (Nat.le_refl _)⟩, by ring⟩

/-- A fraction is rounded to less than `2 ^ 1024` exactly if it is below it by more than half of the last
step. -/
theorem Nearest.lt_iff (h : Nearest (num * one) den magnitude) (hden : 0 < den) :
    magnitude < 2 ^ 2098 ↔ num < (2 ^ (54 : Nat) - 1) * 2 ^ (970 : Nat) * den := by
  -- The exponents are named, so that the powers are not evaluated.
  obtain ⟨step, low, unit, hlow, hunit, hstep⟩ : ∃ step low unit, low = 970 ∧ unit = 1074 ∧
      step = low + unit :=
    ⟨2044, 970, 1074, rfl, rfl, rfl⟩
  have hsum : 2098 = step + 54 := by omega
  have hscaled : (2 ^ (54 : Nat) - 1) * 2 ^ step * den =
      (2 ^ (54 : Nat) - 1) * 2 ^ low * den * one := by
    rw [one_eq, hstep, ← hunit, Nat.pow_add, ← Nat.mul_assoc, Nat.mul_right_comm]
  rw [hsum, h.lt_two_pow_iff hden, hscaled, Nat.mul_lt_mul_right one_pos, hlow]

end Nearest

section Range

variable {num den magnitude : Nat}

/-- The double nearest a fraction has the nearest number of units, if this is below `2 ^ 1024`. -/
theorem units?_nearest (negative : Bool) (hden : 0 < den) (h : Nearest (num * one) den magnitude)
    (hlt : magnitude < 2 ^ 2098) :
    units? (nearest negative num den) = some (withSign negative magnitude) := by
  obtain ⟨mantissa, step, hcanonical, rfl⟩ := h.exists_canonical negative hden hlt
  have hdecode := decode_ofModel_pack hcanonical
  rw [nearest_eq hdecode hden h, units?, hdecode]
  rfl

/-- The last bits are those of infinity. -/
theorem decode_ofMagnitude_infinityBits (negative : Bool) :
    decode (ofMagnitude negative infinityBits) = .infinity negative := by
  cases negative <;> rfl

/-- The double nearest a fraction is infinite, if the nearest number of units is not below `2 ^ 1024`. -/
theorem decode_nearest_of_le (negative : Bool) (hden : 0 < den) (h : Nearest (num * one) den magnitude)
    (hle : 2 ^ 2098 ≤ magnitude) : decode (nearest negative num den) = .infinity negative := by
  have hnum : 0 < num := by
    rcases Nat.eq_zero_or_pos num with rfl | hnum
    · have hnone : magnitude ≤ 0 * 2 ^ 0 := h.le_of_ge hden (by decide) (by simp)
      have := Nat.two_pow_pos 2098
      omega
    · exact hnum
  obtain ⟨step, hstep, rfl⟩ := h
  obtain ⟨step', hstep', hbits⟩ := exists_stepOf_magnitudeBits hnum hden
  obtain rfl := hstep.unique hstep'
  obtain ⟨hhigh, hnormal⟩ := hstep.rounded hden
  have hinfinity : infinityBits ≤
      step * 2 ^ 52 + roundHalfEven (num * one) (den * 2 ^ step) := by
    generalize roundHalfEven (num * one) (den * 2 ^ step) = mantissa at hle hhigh hnormal
    unfold infinityBits
    rcases Nat.lt_or_eq_of_le hhigh with hmantissa | rfl
    · have hpow : 2 ^ 2098 < 2 ^ (53 + step) := by
        calc
          2 ^ 2098 ≤ mantissa * 2 ^ step := hle
          _ < 2 ^ 53 * 2 ^ step := Nat.mul_lt_mul_of_pos_right hmantissa (Nat.two_pow_pos _)
          _ = 2 ^ (53 + step) := (Nat.pow_add ..).symm
      have := (Nat.pow_lt_pow_iff_right Nat.one_lt_two).mp hpow
      omega
    · rw [← Nat.pow_add] at hle
      have := (Nat.pow_le_pow_iff_right Nat.one_lt_two).mp hle
      omega
  rw [nearest, if_neg (Nat.ne_of_gt hnum), hbits, Nat.min_eq_right hinfinity,
    decode_ofMagnitude_infinityBits]

/-- A double is the one that a fraction of units is rounded to: it has the nearest number of units if this
is below `2 ^ 1024`, and is infinite otherwise. -/
def IsRounded (x : Float) (negative : Bool) (num den : Nat) : Prop :=
  ∃ magnitude, Nearest num den magnitude ∧
    (magnitude < 2 ^ 2098 → units? x = some (withSign negative magnitude)) ∧
    (2 ^ 2098 ≤ magnitude → decode x = .infinity negative)

/-- The double nearest a fraction is the one that it is rounded to. -/
theorem isRounded_nearest (negative : Bool) (num : Nat) (hden : 0 < den) :
    IsRounded (nearest negative num den) negative (num * one) den := by
  obtain ⟨magnitude, hnearest⟩ := exists_nearest num hden
  exact ⟨magnitude, hnearest, units?_nearest negative hden hnearest,
    decode_nearest_of_le negative hden hnearest⟩

/-- The double nearest a fraction is infinite exactly if the fraction is not below `2 ^ 1024` by more than
half of the last step. -/
theorem decode_nearest_iff {negative : Bool} (hden : 0 < den) :
    decode (nearest negative num den) = .infinity negative ↔
      (2 ^ (54 : Nat) - 1) * 2 ^ (970 : Nat) * den ≤ num := by
  obtain ⟨magnitude, hnearest⟩ := exists_nearest num hden
  rw [← Nat.not_lt, ← hnearest.lt_iff hden]
  constructor
  · intro hinfinite hlt
    have hunits := units?_nearest negative hden hnearest hlt
    rw [units?, hinfinite] at hunits
    cases hunits
  · intro hle
    exact decode_nearest_of_le negative hden hnearest (Nat.not_lt.mp hle)

end Range

section Decimal

variable {significand : Nat} {exponent : Int}

/-- A decimal that is taken for infinity unread is too large for a double. -/
theorem large_of_le_exponent (hpos : 0 < significand) (hlarge : 310 ≤ exponent) :
    (2 ^ (54 : Nat) - 1) * 2 ^ (970 : Nat) ≤ significand * 10 ^ exponent.toNat := by
  obtain ⟨low, bits, digits, hlow, hbits, hdigits, hten⟩ : ∃ low bits digits, low = 970 ∧
      bits = 1029 ∧ digits = 310 ∧ 2 ^ bits ≤ 10 ^ digits :=
    ⟨970, 1029, 310, rfl, rfl, rfl, two_pow_le_ten_pow.1⟩
  rw [← hlow]
  calc
    (2 ^ (54 : Nat) - 1) * 2 ^ low ≤ 2 ^ (54 : Nat) * 2 ^ low := Nat.mul_le_mul_right _ (Nat.sub_le ..)
    _ = 2 ^ (54 + low) := (Nat.pow_add ..).symm
    _ ≤ 2 ^ bits := Nat.pow_le_pow_right (by decide) (by omega)
    _ ≤ 10 ^ digits := hten
    _ ≤ 10 ^ exponent.toNat := Nat.pow_le_pow_right (by decide) (by omega)
    _ ≤ significand * 10 ^ exponent.toNat := Nat.le_mul_of_pos_left _ hpos

/-- A decimal that is taken for zero unread is less than half a unit. -/
theorem small_of_exponent_lt (hsmall : exponent + significand.log2 + 1 < -330) :
    2 * (significand * one) < 10 ^ (-exponent).toNat := by
  obtain ⟨unit, bits, digits, hunit, hbits, hdigits, hten⟩ : ∃ unit bits digits, unit = 1074 ∧
      bits = 1076 ∧ digits = 324 ∧ 2 ^ bits ≤ 10 ^ digits :=
    ⟨1074, 1076, 324, rfl, rfl, rfl, two_pow_le_ten_pow.2⟩
  have hunits : 2 ^ (unit + 1) ≤ 10 ^ digits :=
    (Nat.pow_le_pow_right (by decide) (by omega)).trans hten
  calc
    2 * (significand * one) = significand * 2 ^ (unit + 1) := by
      rw [one_eq, ← hunit]
      ring
    _ < 10 ^ (significand.log2 + 1) * 10 ^ digits := by
      refine Nat.mul_lt_mul_of_lt_of_le ?_ hunits (Nat.pow_pos (by decide))
      exact Nat.lt_of_lt_of_le Nat.lt_log2_self (Nat.pow_le_pow_left (by decide) _)
    _ = 10 ^ (significand.log2 + 1 + digits) := (Nat.pow_add ..).symm
    _ ≤ 10 ^ (-exponent).toNat := Nat.pow_le_pow_right (by decide) (by omega)

/-- Zero stands for no units. -/
theorem decode_ofMagnitude_zero (negative : Bool) :
    decode (ofMagnitude negative 0) = .finite negative 0 0 := by
  cases negative <;> rfl

/-- A decimal is read as the double nearest to it, also where its power of ten is not looked at. -/
theorem ofDecimal_eq_nearest (negative : Bool) (significand : Nat) (exponent : Int) :
    ofDecimal negative significand exponent =
      nearest negative (significand * 10 ^ exponent.toNat) (10 ^ (-exponent).toNat) := by
  have hden : 0 < 10 ^ (-exponent).toNat := Nat.pow_pos (by decide)
  unfold ofDecimal
  split
  · next hzero => rw [nearest, hzero, Nat.zero_mul, if_pos rfl]
  · next hzero =>
    split
    · next hlarge =>
      have hwhole : (-exponent).toNat = 0 := by omega
      have hinfinite := large_of_le_exponent (Nat.pos_of_ne_zero hzero) hlarge
      rw [← Nat.mul_one ((2 ^ (54 : Nat) - 1) * 2 ^ (970 : Nat))] at hinfinite
      rw [hwhole, Nat.pow_zero]
      refine decode_injective ?_
      rw [decode_ofMagnitude_infinityBits, (decode_nearest_iff Nat.one_pos).mpr hinfinite]
    · split
      · next hsmall =>
        have hfraction : exponent.toNat = 0 := by omega
        have hhalf := small_of_exponent_lt hsmall
        rw [hfraction, Nat.pow_zero, Nat.mul_one]
        have hround : roundHalfEven (significand * one) (10 ^ (-exponent).toNat * 2 ^ 0) ≤ 0 :=
          roundHalfEven_le_of_lt (Nat.mul_pos hden Nat.one_pos) (by omega)
        refine (nearest_eq (decode_ofMagnitude_zero negative) hden ⟨0, ⟨?_, .inl rfl⟩, ?_⟩).symm
        · have := Nat.le_mul_of_pos_right (10 ^ (-exponent).toNat) (Nat.two_pow_pos 53)
          omega
        · rw [Nat.le_zero.mp hround]
      · split
        · next hwhole =>
          have hden : (-exponent).toNat = 0 := by omega
          rw [hden, Nat.pow_zero]
        · next hfraction =>
          have hgrid : exponent.toNat = 0 := by omega
          rw [hgrid, Nat.pow_zero, Nat.mul_one]

end Decimal

end Binary64

end ScalarExpr
