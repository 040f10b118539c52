import ScalarExpr.Proofs.Json.Written

/-!
# Doubles that are surely read back

The reader multiplies or divides two doubles. As long as both are exact, the result is rounded once,
so it is the double nearest the decimal. They are exact for significands up to `2 ^ 53` and powers of
ten up to `10 ^ 22`, and the decimal that is written for a double lies in its basin. So nothing has to
be assumed about doubles whose decimals are in these bounds.
-/

namespace ScalarExpr.Binary64

open Json

section Exactness

variable {x : Float}

/-- The double of a number of 53 bits is this number, also with some zeros behind it. -/
theorem units?_ofInt {q j : Nat} (hq : q ≤ 2 ^ 53) (hj : j ≤ 22) :
    units? (ofInt (q * 2 ^ j : Nat)) = some ((q * 2 ^ j * one : Nat) : Int) := by
  have hsize : q * 2 ^ j ≤ 2 ^ 126 := by
    calc
      q * 2 ^ j ≤ 2 ^ 53 * 2 ^ 22 := Nat.mul_le_mul hq (Nat.pow_le_pow_right (by decide) hj)
      _ ≤ 2 ^ 126 := by decide
  obtain ⟨magnitude, hnearest, hunits⟩ :=
    isNearest_ofInt (lt_two_pow_1023 (m := (q * 2 ^ j : Nat)) hsize)
  have hscaled : q * 2 ^ j * one = q * 2 ^ (j + 1074) * 1 := by
    rw [one_eq, Nat.mul_one, Nat.mul_assoc, Nat.pow_add]
  rw [← Nat.cast_mul, Int.natAbs_natCast] at hnearest
  rw [hnearest.eq_of_eq Nat.one_pos hq hscaled, ← Nat.cast_mul, hscaled, Nat.mul_one] at hunits
  have hsign := Int.sign_mul_natAbs (q * 2 ^ (j + 1074) : Nat)
  rw [Int.natAbs_natCast] at hsign
  rw [hunits, hscaled, Nat.mul_one, hsign]

/-- The double of a significand of 53 bits is the significand. -/
theorem units?_ofInt_significand {significand : Nat} (h : significand ≤ 2 ^ 53) :
    units? (ofInt significand) = some ((significand * one : Nat) : Int) := by
  have hunits := @units?_ofInt significand 0 h (by decide)
  rwa [Nat.pow_zero, Nat.mul_one] at hunits

/-- Powers of ten up to this one have 53 bits before their zeros. -/
theorem units?_powerOfTen {power : Nat} (h : power ≤ 22) :
    units? (powerOfTen power) = some ((10 ^ power * one : Nat) : Int) := by
  have hten : 10 ^ power = 5 ^ power * 2 ^ power := Nat.mul_pow 5 2 power
  have hfive : 5 ^ power ≤ 2 ^ 53 := by
    calc
      5 ^ power ≤ 5 ^ 22 := Nat.pow_le_pow_right (by decide) h
      _ ≤ 2 ^ 53 := by decide
  have hpower : powerOfTen power = ofInt (5 ^ power * 2 ^ power : Nat) := by
    rw [powerOfTen, ofDecimal, if_neg (by decide), if_neg (by omega), if_neg (by omega),
      if_pos (by omega), Int.toNat_natCast, Nat.one_mul, hten]
    rfl
  rw [hpower, hten]
  exact units?_ofInt hfive h

/-- A double with units is finite. -/
theorem isInf_of_units? {u : Int} (h : units? x = some u) : x.isInf = false := by
  have hunpack : x.isInf = (decode x).unpacked.isInf := by
    rw [← unpack_toModel]
    rfl
  rw [hunpack]
  unfold units? at h
  cases hdecode : decode x with
  | nan | infinity =>
    rw [hdecode] at h
    cases h
  | finite negative mantissa step => cases mantissa <;> rfl

end Exactness

section Nearest

variable {x y : Float} {negative : Bool} {mantissa step num den : Nat}

/-- What is nearest to a fraction that rounds to the units of a double is its magnitude. -/
theorem decode_of_isNearest (hcanonical : (Decoded.finite negative mantissa step).Canonical)
    (hpos : 0 < mantissa) (hnum : 0 < num) (hy : IsNearest y num den)
    (hnearest : Nearest num den (mantissa * 2 ^ step)) :
    decode y = .finite false mantissa step := by
  obtain ⟨hmantissa, -, hnormal⟩ := hcanonical
  have hunits : units? y = some ((mantissa * 2 ^ step : Nat) : Int) := by
    obtain ⟨magnitude, hmagnitude, hunits⟩ := hy
    rw [Int.natAbs_natCast] at hmagnitude
    rw [hunits, hmagnitude.unique hnearest, Int.sign_eq_one_of_pos (by omega), Int.one_mul]
  have hcanonical : (decode y).Canonical := canonical_decodeBits _
  unfold units? at hunits
  cases hdecode : decode y with
  | nan | infinity =>
    rw [hdecode] at hunits
    cases hunits
  | finite negative' mantissa' step' =>
    rw [hdecode, Decoded.units?, Option.some.injEq] at hunits
    rw [hdecode] at hcanonical
    have hmagnitude : 0 < mantissa * 2 ^ step := Nat.mul_pos hpos (Nat.pow_pos (by decide))
    cases negative' with
    | true =>
      rw [withSign, if_pos rfl] at hunits
      omega
    | false =>
      obtain ⟨rfl, rfl⟩ := mantissa_unique (Int.ofNat_inj.mp hunits) hcanonical.1 hcanonical.2.2
        hmantissa hnormal
      rfl

/-- A basin holds a fraction, however it is written. -/
theorem Basin.holds_mul_mul {basin : Basin} {c : Nat} (hc : 0 < c) (num den : Nat) :
    basin.holds (c * num) (c * den) = basin.holds num den := by
  unfold holds
  rw [Nat.mul_left_comm basin.low, Nat.mul_left_comm basin.high]
  simp only [Nat.mul_le_mul_left_iff hc, Nat.mul_lt_mul_left hc]

/-- A decimal that is scaled up by a power of ten, and has its digits for it, is as large. -/
theorem Basin.HoldsDecimal.spelled {basin : Basin} {decimal : Decimal}
    (h : basin.HoldsDecimal decimal) : basin.HoldsDecimal decimal.spelled := by
  unfold Decimal.spelled
  split
  · next hwhole =>
    have hden : (-decimal.exponent).toNat = 0 := by omega
    have hpower : (decimal.exponent + 1).toNat = decimal.exponent.toNat + 1 := by omega
    have hnum (unit : Nat) : decimal.significand * 10 ^ (decimal.exponent.toNat + 1) *
        (10 ^ 0 * unit) = 10 * (decimal.significand * (10 ^ decimal.exponent.toNat * unit)) := by
      ring
    have hminus : (-1 : Int).toNat = 0 := rfl
    have hplus : 10 ^ (- -1 : Int).toNat = 10 * 10 ^ 0 := rfl
    rw [HoldsDecimal, two_pow_eq_four_mul_one, hden] at h
    rw [HoldsDecimal, two_pow_eq_four_mul_one, hpower, hminus, hplus, hnum,
      holds_mul_mul (by decide)]
    exact h
  · exact h

/-- The product with a power of ten is rounded once. -/
theorem isNearest_mul_powerOfTen {significand power : Nat} (hpositive : 0 < significand)
    (hsignificand : significand ≤ 2 ^ 53) (hpower : power ≤ 22) :
    IsNearest (ofInt significand * powerOfTen power) (significand * 10 ^ power * one : Nat) 1 := by
  have hten : 0 < 10 ^ power := Nat.pow_pos (by decide)
  have hproduct : ((significand * one : Nat) : Int) * (10 ^ power * one : Nat) =
      one * (significand * 10 ^ power * one : Nat) := by
    push_cast
    ring
  have hsize : significand * 10 ^ power < 2 ^ 1023 := by
    calc
      significand * 10 ^ power ≤ 2 ^ 53 * 10 ^ 22 :=
        Nat.mul_le_mul hsignificand (Nat.pow_le_pow_right (by decide) hpower)
      _ ≤ 2 ^ 127 := by decide
      _ < 2 ^ 1023 := pow_lt_pow_right₀ (by decide) (by decide)
  refine (isNearest_mul_mul_iff one_pos).mp ?_
  rw [Nat.mul_one, ← hproduct]
  refine isNearest_mul (units?_ofInt_significand hsignificand) (units?_powerOfTen hpower)
    (Nat.le_mul_of_pos_left one hpositive) (Nat.le_mul_of_pos_left one hten) ?_
  rw [hproduct, Int.natAbs_mul, Int.natAbs_natCast, Int.natAbs_natCast]
  exact Nat.mul_lt_mul_of_pos_left (fits_of_lt hsize) one_pos

/-- The quotient by a power of ten is rounded once. -/
theorem isNearest_div_powerOfTen {significand power : Nat} (hpositive : 0 < significand)
    (hsignificand : significand ≤ 2 ^ 53) (hpower : power ≤ 22) :
    IsNearest (ofInt significand / powerOfTen power) (significand * one : Nat) (10 ^ power) := by
  have hten : 0 < 10 ^ power * one := Nat.mul_pos (Nat.pow_pos (by decide)) one_pos
  have hquotient : ((significand * one : Nat) : Int) * ((10 ^ power * one : Nat) : Int).sign * one =
      one * (significand * one : Nat) := by
    rw [Int.sign_eq_one_of_pos (by omega), Int.mul_one, Int.mul_comm]
  have hsize : significand < 2 ^ 1023 := by
    calc
      significand ≤ 2 ^ 53 := hsignificand
      _ < 2 ^ 1023 := pow_lt_pow_right₀ (by decide) (by decide)
  refine (isNearest_mul_mul_iff one_pos).mp ?_
  rw [Nat.mul_comm one (10 ^ power), ← hquotient]
  refine isNearest_div (units?_ofInt_significand hsignificand) (units?_powerOfTen hpower)
    (Nat.le_mul_of_pos_left one hpositive) (by omega) ?_
  rw [Int.natAbs_natCast, Int.natAbs_natCast]
  calc
    significand * one * one < 2 ^ 2097 * one :=
      Nat.mul_lt_mul_of_pos_right (fits_of_lt hsize) one_pos
    _ = 1 * one * 2 ^ 2097 := by rw [Nat.one_mul, Nat.mul_comm]
    _ ≤ 10 ^ power * one * 2 ^ 2097 :=
      Nat.mul_le_mul_right _ (Nat.mul_le_mul_right _ (Nat.pow_pos (by decide)))

/-- A decimal in the basin of a double is scaled to the double if it is not too large. -/
theorem scale?_of_holdsDecimal {decimal : Decimal} (h : decode x = .finite negative mantissa step)
    (hpos : 0 < mantissa) (hdecimal : (Basin.of mantissa step).HoldsDecimal decimal)
    (hsignificand : decimal.significand ≤ 2 ^ 53) (hexponent : decimal.exponent.natAbs ≤ 22) :
    ∃ magnitude, scale? (ofInt decimal.significand) decimal.exponent = some magnitude ∧
      decode magnitude = .finite false mantissa step := by
  have hcanonical : (decode x).Canonical := canonical_decodeBits _
  rw [h] at hcanonical
  have hpositive := significand_pos_of_holdsDecimal hpos hdecimal
  have hnearest := nearest_of_holdsDecimal h hpos hdecimal
  obtain ⟨significand, exponent⟩ := decimal
  dsimp only at *
  rw [scale?, if_neg (by omega)]
  rcases Int.lt_or_le exponent 0 with hfraction | hwhole
  · have hgrid : exponent.toNat = 0 := by omega
    rw [hgrid, Nat.pow_zero, Nat.mul_one] at hnearest
    rw [if_neg (by omega), if_pos (by omega)]
    exact ⟨_, rfl, decode_of_isNearest hcanonical hpos (Nat.mul_pos hpositive one_pos)
      (isNearest_div_powerOfTen hpositive hsignificand (by omega)) hnearest⟩
  · have hden : (-exponent).toNat = 0 := by omega
    rw [hden, Nat.pow_zero] at hnearest
    have hdecode := decode_of_isNearest hcanonical hpos
      (Nat.mul_pos (Nat.mul_pos hpositive (Nat.pow_pos (by decide))) one_pos)
      (isNearest_mul_powerOfTen hpositive hsignificand (by omega)) hnearest
    have hunits := congrArg Decoded.units? hdecode
    rw [if_pos hwhole]
    dsimp only
    rw [isInf_of_units? hunits]
    exact ⟨_, rfl, hdecode⟩

/-- A double whose decimal is not too large is read back. -/
theorem readsBack_of_spelled_le (h : decode x = .finite negative mantissa step)
    (hsignificand : (written mantissa step).spelled.significand ≤ 2 ^ 53)
    (hexponent : (written mantissa step).spelled.exponent.natAbs ≤ 22) : ReadsBack x := by
  have hcanonical : (decode x).Canonical := canonical_decodeBits _
  rw [h] at hcanonical
  simp only [ReadsBack, h]
  intro hmantissa
  have hpos := Nat.pos_of_ne_zero hmantissa
  have hdecimal : (Basin.of mantissa step).HoldsDecimal (written mantissa step) := by
    rw [written, if_neg hmantissa]
    exact holdsDecimal_shortest .even hpos hcanonical.1 (by have := hcanonical.2.1; omega)
  obtain ⟨magnitude, hscale, hdecode⟩ :=
    scale?_of_holdsDecimal h hpos hdecimal.spelled hsignificand hexponent
  refine ⟨magnitude, hscale, eq_of_decode ?_ h⟩
  cases negative with
  | true => exact (decode_neg magnitude).trans (congrArg Decoded.negate hdecode)
  | false => exact hdecode

end Nearest

end ScalarExpr.Binary64
