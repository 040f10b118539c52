import ScalarExpr.Proofs.Number.Operations

/-!
# Whole numbers as doubles

The double of an integer is the one nearest to it, and is whole again. So are sums and products of
whole doubles: the machine rounds the exact result of the rounded operands once more.
-/

namespace ScalarExpr.Binary64

section Reading

variable {x y : Float} {n : Int}

/-- A signed number of units is divided into ones exactly if it is a multiple of them. -/
theorem whole_iff (negative : Bool) (units : Nat) :
    (if units % one = 0 then some (withSign negative (units / one)) else none) = some n ↔
      withSign negative units = n * one := by
  have hone := one_pos
  constructor
  · intro h
    by_cases hwhole : units % one = 0
    · rw [if_pos hwhole, Option.some.injEq] at h
      have hunits : withSign negative (units / one * one) = n * one := by
        rw [Nat.mul_comm, withSign_nat_mul, Int.mul_comm]
        exact congrArg (· * (one : Int)) h
      rwa [Nat.div_mul_cancel (Nat.dvd_of_mod_eq_zero hwhole)] at hunits
    · rw [if_neg hwhole] at h
      cases h
  · intro h
    have habs : units = n.natAbs * one := by
      rw [← natAbs_withSign negative units, h, Int.natAbs_mul, Int.natAbs_natCast]
    rw [habs, if_pos (Nat.mul_mod_left ..), Nat.mul_div_cancel _ hone]
    rw [habs, Nat.mul_comm, withSign_nat_mul, Int.mul_comm] at h
    exact congrArg some (Int.eq_of_mul_eq_mul_right (by omega) h)

/-- A double is a whole number exactly if it has as many units. -/
theorem whole?_eq_some_iff : whole? x = some n ↔ units? x = some (n * one) := by
  rw [whole?_eq]
  unfold units?
  cases decode x with
  | nan | infinity => exact ⟨nofun, nofun⟩
  | finite negative mantissa step =>
    rw [Decoded.units?, Option.some.injEq]
    exact whole_iff negative _

/-- A double is zero exactly if it has no units. -/
theorem isZero_iff : isZero x = true ↔ units? x = some 0 := by
  unfold isZero units?
  cases decode x with
  | nan | infinity => simp [Decoded.units?]
  | finite negative mantissa step =>
    have hzero : withSign negative (mantissa * 2 ^ step) = 0 ↔ mantissa = 0 := by
      rw [← Int.natAbs_eq_zero, natAbs_withSign]
      simp
    simp [Decoded.units?, hzero]

/-- A remainder by zero is no number. -/
theorem remainder_of_isZero (hy : isZero y = true) : remainder x y = nan := by
  unfold isZero at hy
  unfold remainder
  cases hdecode : decode y with
  | nan | infinity =>
    rw [hdecode] at hy
    cases hy
  | finite negative mantissa step =>
    rw [hdecode] at hy
    cases decode x with
    | nan | infinity => rfl
    | finite negative' mantissa' step' => exact if_pos (eq_of_beq hy)

end Reading

section Nearest

variable {num den : Nat}

/-- The bits of a mantissa at a step encode this mantissa. -/
theorem decode_ofMagnitude (negative : Bool) {mantissa step : Nat} (hmantissa : mantissa ≤ 2 ^ 53)
    (hnormal : step = 0 ∨ 2 ^ 52 ≤ mantissa) (hstep : step ≤ 2044) :
    decode (ofMagnitude negative (step * 2 ^ 52 + mantissa)) =
      .ofRounded negative mantissa step := by
  have hbits : (UInt64.ofNat (if negative then 2 ^ 63 + (step * 2 ^ 52 + mantissa)
      else step * 2 ^ 52 + mantissa)).toNat =
      (if negative then 2 ^ 63 else 0) + (step * 2 ^ 52 + mantissa) := by
    rw [UInt64.toNat_ofNat']
    cases negative <;> simp <;> omega
  have hjoin (biased fraction : Nat) (h : biased * 2 ^ 52 + fraction = step * 2 ^ 52 + mantissa) :
      (if negative then 2 ^ 63 else 0) + (step * 2 ^ 52 + mantissa) =
        joinBits negative biased fraction := by
    rw [joinBits, h]
  unfold ofMagnitude Decoded.ofRounded
  rw [decode_ofBits, hbits]
  by_cases hcarry : mantissa = 2 ^ 53
  · rw [if_pos hcarry, hjoin (step + 2) 0 (by omega), decodeBits_joinBits (by omega) (by decide),
      if_neg (by omega), if_neg (by omega)]
    rfl
  · rw [if_neg hcarry]
    by_cases hlarge : 2 ^ 52 ≤ mantissa
    · rw [hjoin (step + 1) (mantissa - 2 ^ 52) (by omega),
        decodeBits_joinBits (by omega) (by omega), if_neg (by omega), if_neg (by omega),
        Nat.add_sub_cancel' hlarge]
      rfl
    · have hzero : step = 0 := by omega
      rw [hjoin 0 mantissa (by omega), decodeBits_joinBits (by decide) (by omega), hzero]
      rfl

/-- The bits nearest a fraction are those of its rounded mantissa at its step, up to infinity. -/
theorem exists_stepOf_magnitudeBits (hnum : 0 < num) (hden : 0 < den) :
    ∃ step, StepOf (num * one) den step ∧ magnitudeBits num den =
      min (step * 2 ^ 52 + roundHalfEven (num * one) (den * 2 ^ step)) infinityBits := by
  have hupper : num * one < den * 2 ^ (num.log2 + 1021 - den.log2 + 54) := by
    calc num * one < 2 ^ (num.log2 + 1) * one :=
          (Nat.mul_lt_mul_right one_pos).mpr Nat.lt_log2_self
      _ = 2 ^ (num.log2 + 1 + 1074) := by rw [pow_add _ _ 1074, ← one_eq]
      _ ≤ 2 ^ (den.log2 + (num.log2 + 1021 - den.log2 + 54)) :=
        Nat.pow_le_pow_right (by decide) (by omega)
      _ = 2 ^ den.log2 * 2 ^ (num.log2 + 1021 - den.log2 + 54) := pow_add ..
      _ ≤ den * 2 ^ (num.log2 + 1021 - den.log2 + 54) :=
        Nat.mul_le_mul_right _ (Nat.log2_self_le (Nat.ne_of_gt hden))
  have hlower : num.log2 + 1021 - den.log2 = 0 ∨
      den * 2 ^ (num.log2 + 1021 - den.log2 + 52) ≤ num * one := by
    rcases Nat.eq_zero_or_pos (num.log2 + 1021 - den.log2) with hzero | hpos
    · exact .inl hzero
    · refine .inr ?_
      calc den * 2 ^ (num.log2 + 1021 - den.log2 + 52) ≤
            2 ^ (den.log2 + 1) * 2 ^ (num.log2 + 1021 - den.log2 + 52) :=
          Nat.mul_le_mul_right _ (Nat.le_of_lt Nat.lt_log2_self)
        _ = 2 ^ (den.log2 + 1 + (num.log2 + 1021 - den.log2 + 52)) := (pow_add ..).symm
        _ ≤ 2 ^ (num.log2 + 1074) := Nat.pow_le_pow_right (by decide) (by omega)
        _ = 2 ^ num.log2 * one := by rw [pow_add, ← one_eq]
        _ ≤ num * one := Nat.mul_le_mul_right _ (Nat.log2_self_le (Nat.ne_of_gt hnum))
  rw [magnitudeBits_eq]
  dsimp only
  generalize num.log2 + 1021 - den.log2 = coarse at hupper hlower ⊢
  by_cases hlt : num * one < den * 2 ^ (coarse + 53)
  · rw [if_pos hlt]
    exact ⟨coarse, ⟨hlt, hlower⟩, rfl⟩
  · rw [if_neg hlt]
    exact ⟨coarse + 1, ⟨hupper, .inr (Nat.not_lt.mp hlt)⟩, rfl⟩

/-- A fraction that is not too large is not rounded to infinity. -/
theorem exists_magnitudeBits (hnum : 0 < num) (hden : 0 < den)
    (hfits : num * one < den * 2 ^ 2097) :
    ∃ step, StepOf (num * one) den step ∧ magnitudeBits num den =
      step * 2 ^ 52 + roundHalfEven (num * one) (den * 2 ^ step) := by
  obtain ⟨step, hstep, hbits⟩ := exists_stepOf_magnitudeBits hnum hden
  obtain ⟨hmantissa, -, hlast⟩ := hstep.mantissa hden hfits
  refine ⟨step, hstep, hbits.trans (Nat.min_eq_left ?_)⟩
  unfold infinityBits
  omega

/-- The double nearest a fraction is the nearest to it. -/
theorem isNearest_nearest (negative : Bool) (hden : 0 < den)
    (hfits : num * one < den * 2 ^ 2097) :
    IsNearest (nearest negative num den) (withSign negative (num * one)) den := by
  unfold nearest
  by_cases hzero : num = 0
  · have hdecode : decode (ofMagnitude negative 0) = .ofRounded negative 0 0 :=
      @decode_ofMagnitude negative 0 0 (by decide) (.inl rfl) (by decide)
    have hround : roundHalfEven 0 (den * 2 ^ 0) = 0 := by
      have hmul := roundHalfEven_mul 0 (den * 2 ^ 0) (by positivity)
      rwa [Nat.zero_mul] at hmul
    have hnone : withSign negative (0 * one) = 0 := by
      rw [Nat.zero_mul]
      cases negative <;> rfl
    rw [if_pos hzero, hzero, hnone]
    refine ⟨0, ⟨0, ⟨by positivity, .inl rfl⟩, ?_⟩, ?_⟩
    · rw [Int.natAbs_zero, hround, Nat.zero_mul]
    · rw [units?, hdecode, units?_ofRounded, Nat.zero_mul]
      cases negative <;> rfl
  · have hpos : 0 < num := Nat.pos_of_ne_zero hzero
    have hnum : 0 < num * one := Nat.mul_pos hpos one_pos
    obtain ⟨step, hstep, hbits⟩ := exists_magnitudeBits hpos hden hfits
    rw [if_neg hzero]
    obtain ⟨hmantissa, hnormal, hlast⟩ := hstep.mantissa hden hfits
    refine ⟨_, ⟨step, by rwa [natAbs_withSign], rfl⟩, ?_⟩
    rw [units?, hbits, decode_ofMagnitude negative hmantissa hnormal hlast, units?_ofRounded,
      natAbs_withSign, ← withSign_eq_sign_mul hnum]

end Nearest

/-- A whole number is the double nearest a fraction. -/
def RoundsTo (num den whole : Nat) : Prop := Nearest (num * one) den (whole * one)

namespace RoundsTo

variable {num den whole : Nat}

/-- A fraction that is not below a number of 53 bits is not rounded below it. -/
theorem le_of_le {q j : Nat} (h : RoundsTo num den whole) (hden : 0 < den) (hq : q ≤ 2 ^ 53)
    (hle : q * 2 ^ j * den ≤ num) : q * 2 ^ j ≤ whole := by
  have hscaled : q * 2 ^ (j + 1074) = q * 2 ^ j * one := by rw [pow_add, one_eq, Nat.mul_assoc]
  refine Nat.le_of_mul_le_mul_right ?_ one_pos
  rw [← hscaled]
  refine Nearest.le_of_le h hden hq ?_
  rw [hscaled, Nat.mul_right_comm]
  exact Nat.mul_le_mul_right _ hle

/-- A fraction that is not above a number of 53 bits is not rounded above it. -/
theorem le_of_ge {q j : Nat} (h : RoundsTo num den whole) (hden : 0 < den) (hq : q ≤ 2 ^ 53)
    (hge : num ≤ q * 2 ^ j * den) : whole ≤ q * 2 ^ j := by
  have hscaled : q * 2 ^ (j + 1074) = q * 2 ^ j * one := by rw [pow_add, one_eq, Nat.mul_assoc]
  refine Nat.le_of_mul_le_mul_right ?_ one_pos
  rw [← hscaled]
  refine Nearest.le_of_ge h hden hq ?_
  rw [hscaled, Nat.mul_right_comm]
  exact Nat.mul_le_mul_right _ hge

/-- A fraction within half a unit of its last place below a power of two is rounded up to it. -/
theorem two_pow_le {j : Nat} (h : RoundsTo num den whole) (hden : 0 < den)
    (hle : (2 ^ 54 - 1) * 2 ^ j * den ≤ num) : 2 ^ (j + 54) ≤ whole := by
  have hscaled : 2 ^ (j + 1074 + 54) = 2 ^ (j + 54) * one := by
    rw [one_eq, ← pow_add]
  refine Nat.le_of_mul_le_mul_right ?_ one_pos
  rw [← hscaled]
  refine Nearest.two_pow_le h hden ?_
  rw [pow_add, ← one_eq, ← Nat.mul_assoc, Nat.mul_right_comm]
  exact Nat.mul_le_mul_right _ hle

/-- A number of 53 bits is kept. -/
theorem eq_of_le (h : RoundsTo num 1 whole) (hnum : num ≤ 2 ^ 53) : whole = num := by
  have hlow := h.le_of_le (q := num) (j := 0) Nat.one_pos hnum (by simp)
  have hhigh := h.le_of_ge (q := num) (j := 0) Nat.one_pos hnum (by simp)
  omega

/-- A number with 53 bits at a step is rounded to a multiple of this step, and moved by half of it at
most. -/
theorem exists_mantissa {j : Nat} (h : RoundsTo num 1 whole) (hlow : 2 ^ (j + 52) ≤ num)
    (hhigh : num ≤ 2 ^ (j + 53)) :
    ∃ mantissa, whole = mantissa * 2 ^ j ∧ 2 * num ≤ 2 * whole + 2 ^ j ∧
      2 * whole ≤ 2 * num + 2 ^ j := by
  have hscaled (k : Nat) : 1 * 2 ^ (j + 1074 + k) = 2 ^ (j + k) * one := by
    rw [Nat.one_mul, Nat.add_right_comm, pow_add _ _ 1074, ← one_eq]
  have hlow' : 1 * 2 ^ (j + 1074 + 52) ≤ num * one := by
    rw [hscaled]
    exact Nat.mul_le_mul_right _ hlow
  have hhigh' : num * one ≤ 1 * 2 ^ (j + 1074 + 53) := by
    rw [hscaled]
    exact Nat.mul_le_mul_right _ hhigh
  obtain ⟨mantissa, hmultiple, hbelow, habove⟩ := Nearest.exists_mantissa h Nat.one_pos hlow' hhigh'
  have hstep : 2 ^ (j + 1074) = 2 ^ j * one := by rw [pow_add, ← one_eq]
  rw [Nat.mul_one, Nat.one_mul, hstep, ← Nat.mul_assoc, ← Nat.mul_assoc, ← Nat.add_mul] at hbelow habove
  rw [hstep, ← Nat.mul_assoc] at hmultiple
  exact ⟨mantissa, Nat.eq_of_mul_eq_mul_right one_pos hmultiple,
    Nat.le_of_mul_le_mul_right hbelow one_pos, Nat.le_of_mul_le_mul_right habove one_pos⟩

/-- A fraction that is not too small is moved by less than itself over `2 ^ 53`. -/
theorem error_lt (h : RoundsTo num den whole) (hden : 0 < den) (hnum : 0 < num)
    (hsmall : den ≤ 2 ^ 64) :
    2 ^ 53 * (whole * den) < 2 ^ 53 * num + num ∧ 2 ^ 53 * num < 2 ^ 53 * (whole * den) + num := by
  have hnormal : den * 2 ^ 52 ≤ num * one := by
    calc den * 2 ^ 52 ≤ 2 ^ 64 * 2 ^ 52 := Nat.mul_le_mul_right _ hsmall
      _ = 2 ^ 116 := (pow_add 2 64 52).symm
      _ ≤ 2 ^ 1074 := pow_le_pow_right₀ (by decide) (by decide)
      _ = one := one_eq.symm
      _ ≤ num * one := Nat.le_mul_of_pos_left _ hnum
  obtain ⟨hhigh, hlow⟩ := Nearest.error_lt h hden hnormal
  have hwhole : 2 ^ 53 * (whole * one * den) = 2 ^ 53 * (whole * den) * one := by ring
  have hexact : 2 ^ 53 * (num * one) = 2 ^ 53 * num * one := by ring
  rw [hwhole, hexact, ← Nat.add_mul] at hhigh hlow
  exact ⟨Nat.lt_of_mul_lt_mul_right hhigh, Nat.lt_of_mul_lt_mul_right hlow⟩

/-- A whole number is rounded to a whole number. -/
theorem exists_whole {magnitude : Nat} (h : Nearest (num * one) 1 magnitude) :
    ∃ whole, magnitude = whole * one := by
  obtain ⟨step, hstep, hround⟩ := id h
  rcases Nat.lt_or_ge step 1074 with hlt | hge
  · have hnum : num * one < 2 ^ 53 * one := by
      calc num * one < 1 * 2 ^ (step + 53) := hstep.lt
        _ = 2 ^ (step + 53) := Nat.one_mul _
        _ ≤ 2 ^ (53 + 1074) := pow_le_pow_right₀ (by decide) (by omega)
        _ = 2 ^ 53 * one := by rw [pow_add, one_eq]
    have hbits : num ≤ 2 ^ 53 := Nat.le_of_lt (Nat.lt_of_mul_lt_mul_right hnum)
    obtain ⟨unit, hunit⟩ : ∃ unit, one = 2 ^ unit := ⟨1074, one_eq⟩
    have hexact : num * one = num * 2 ^ unit * 1 := by rw [Nat.mul_one, hunit]
    exact ⟨num, by rw [Nearest.eq_of_eq h Nat.one_pos hbits hexact, hunit]⟩
  · obtain ⟨k, rfl⟩ := Nat.exists_eq_add_of_le hge
    exact ⟨roundHalfEven (num * one) (1 * 2 ^ (1074 + k)) * 2 ^ k, by
      rw [hround, pow_add, ← one_eq, Nat.mul_assoc, Nat.mul_comm one]⟩

end RoundsTo

/-- An integer is the double nearest a fraction of an integer: so are their magnitudes, and the sign is
kept. -/
structure SignedRoundsTo (a : Int) (den : Nat) (n : Int) : Prop where
  /-- The magnitude is rounded. -/
  magnitude : RoundsTo a.natAbs den n.natAbs
  /-- The sign is kept. -/
  sign : n = a.sign * n.natAbs

namespace SignedRoundsTo

variable {a n : Int} {den : Nat}

/-- Rounding is the same on both sides of zero. -/
theorem neg (h : SignedRoundsTo a den n) : SignedRoundsTo (-a) den (-n) := by
  refine ⟨?_, ?_⟩
  · rw [Int.natAbs_neg, Int.natAbs_neg]
    exact h.magnitude
  · rw [Int.sign_neg, Int.natAbs_neg, Int.neg_mul, ← h.sign]

/-- What is not negative is not rounded to something negative. -/
theorem nonneg (h : SignedRoundsTo a den n) (ha : 0 ≤ a) : 0 ≤ n := by
  rw [h.sign]
  exact Int.mul_nonneg (Int.sign_nonneg_iff.mpr ha) (Int.natCast_nonneg _)

/-- A number of 53 bits is kept, with its sign. -/
theorem eq_of_le (h : SignedRoundsTo a 1 n) (ha : a.natAbs ≤ 2 ^ 53) : n = a := by
  rw [h.sign, h.magnitude.eq_of_le ha, Int.sign_mul_natAbs]

/-- Only zero is rounded to zero. -/
theorem eq_zero_iff (h : SignedRoundsTo a 1 n) : n = 0 ↔ a = 0 := by
  constructor
  · intro hn
    by_contra ha
    -- A magnitude that is not zero is at least one, which is not rounded down.
    have hkept := h.magnitude.le_of_le (q := 1) (j := 0) Nat.one_pos (by decide) (by omega)
    omega
  · intro ha
    rw [h.sign, ha, Int.sign_zero, Int.zero_mul]

/-- What is not rounded to zero is rounded to a number with the same sign. -/
theorem sign_eq (h : SignedRoundsTo a den n) (hn : n ≠ 0) : n.sign = a.sign := by
  have hpos := Int.sign_natCast_of_ne_zero (Int.natAbs_ne_zero.mpr hn)
  rw [h.sign, Int.sign_mul, Int.sign_sign, hpos, Int.mul_one]

end SignedRoundsTo

section Whole

variable {x y : Float} {a b n : Int}

/-- What is not too large in ones does not round to infinity. -/
theorem fits_of_lt {n : Nat} (h : n < 2 ^ 1023) : n * one < 2 ^ 2097 := by
  calc n * one < 2 ^ 1023 * one := (Nat.mul_lt_mul_right one_pos).mpr h
    _ = 2 ^ 2097 := by rw [one_eq, ← pow_add]

/-- Ones do not change a sign. -/
theorem sign_mul_one (a : Int) : (a * (one : Int)).sign = a.sign := by
  rw [Int.sign_mul, Int.sign_eq_one_of_pos (Int.natCast_pos.mpr one_pos), Int.mul_one]

/-- The whole double nearest a fraction of ones is the integer nearest to it. -/
theorem signedRoundsTo_of_isNearest {den : Nat} (hden : 0 < den) (h : IsNearest x (a * one) den)
    (hwhole : whole? x = some n) : SignedRoundsTo a den n := by
  obtain ⟨magnitude, hnearest, hunits⟩ := h
  have hone : 0 < (one : Int) := Int.natCast_pos.mpr one_pos
  rw [Int.natAbs_mul, Int.natAbs_natCast] at hnearest
  rw [whole?_eq_some_iff, hunits, sign_mul_one, Option.some.injEq] at hwhole
  have habs : magnitude = n.natAbs * one := by
    by_cases hzero : a = 0
    · subst hzero
      have hnone : magnitude ≤ 0 * 2 ^ 0 := hnearest.le_of_ge hden (by decide) (by simp)
      rw [Int.sign_zero, Int.zero_mul] at hwhole
      have hn : n = 0 := (Int.mul_eq_zero.mp hwhole.symm).resolve_right (Int.ne_of_gt hone)
      rw [hn, Int.natAbs_zero, Nat.zero_mul]
      omega
    · have := congrArg Int.natAbs hwhole
      rwa [Int.natAbs_mul, Int.natAbs_sign_of_ne_zero hzero, Nat.one_mul, Int.natAbs_natCast,
        Int.natAbs_mul, Int.natAbs_natCast] at this
  subst habs
  refine ⟨hnearest, ?_⟩
  rw [Nat.cast_mul, ← Int.mul_assoc] at hwhole
  exact (Int.eq_of_mul_eq_mul_right (Int.ne_of_gt hone) hwhole).symm

/-- The double nearest a whole number is whole. -/
theorem exists_whole_of_isNearest (h : IsNearest x (a * one) 1) : ∃ n, whole? x = some n := by
  obtain ⟨magnitude, hnearest, hunits⟩ := h
  rw [Int.natAbs_mul, Int.natAbs_natCast] at hnearest
  obtain ⟨whole, rfl⟩ := RoundsTo.exists_whole hnearest
  refine ⟨(a * one).sign * whole, whole?_eq_some_iff.mpr ?_⟩
  rw [hunits, Nat.cast_mul, Int.mul_assoc]

/-- The double of an integer is the nearest to it. -/
theorem isNearest_ofInt (h : n.natAbs < 2 ^ 1023) : IsNearest (ofInt n) (n * one) 1 := by
  have hfits : n.natAbs * one < 1 * 2 ^ 2097 := by
    rw [Nat.one_mul]
    exact fits_of_lt h
  have hnearest := isNearest_nearest (decide (n < 0)) Nat.one_pos hfits
  have hunits : withSign (decide (n < 0)) (n.natAbs * one) = n * one := by
    rw [Nat.mul_comm, withSign_nat_mul, withSign_natAbs, Int.mul_comm]
  rwa [hunits] at hnearest

/-- The sum of whole doubles is the nearest to the whole sum. -/
theorem isNearest_whole_add (hx : whole? x = some a) (hy : whole? y = some b)
    (hfits : (a + b).natAbs < 2 ^ 1023) : IsNearest (x + y) ((a + b) * one) 1 := by
  rw [whole?_eq_some_iff] at hx hy
  rw [Int.add_mul]
  refine isNearest_add hx hy ?_
  rw [← Int.add_mul, Int.natAbs_mul, Int.natAbs_natCast]
  exact fits_of_lt hfits

/-- The difference of whole doubles is the nearest to the whole difference. -/
theorem isNearest_whole_sub (hx : whole? x = some a) (hy : whole? y = some b)
    (hfits : (a - b).natAbs < 2 ^ 1023) : IsNearest (x - y) ((a - b) * one) 1 := by
  rw [whole?_eq_some_iff] at hx hy
  rw [Int.sub_mul]
  refine isNearest_sub hx hy ?_
  rw [← Int.sub_mul, Int.natAbs_mul, Int.natAbs_natCast]
  exact fits_of_lt hfits

/-- A whole number other than zero is at least one in size. -/
theorem one_le_natAbs_mul (ha : a ≠ 0) : one ≤ (a * one).natAbs := by
  rw [Int.natAbs_mul, Int.natAbs_natCast]
  exact Nat.le_mul_of_pos_left _ (Int.natAbs_pos.mpr ha)

/-- The product of whole doubles other than zero is the nearest to the whole product. -/
theorem isNearest_whole_mul (hx : whole? x = some a) (hy : whole? y = some b) (ha : a ≠ 0)
    (hb : b ≠ 0) (hfits : (a * b).natAbs < 2 ^ 1023) : IsNearest (x * y) (a * b * one) 1 := by
  rw [whole?_eq_some_iff] at hx hy
  have hunits : a * one * (b * one) = (one : Int) * (a * b * one) := by ring
  have hproduct : (a * one * (b * one)).natAbs < one * 2 ^ 2097 := by
    rw [hunits, Int.natAbs_mul, Int.natAbs_natCast, Int.natAbs_mul, Int.natAbs_natCast]
    exact (Nat.mul_lt_mul_left one_pos).mpr (fits_of_lt hfits)
  have hnearest := isNearest_mul hx hy (one_le_natAbs_mul ha) (one_le_natAbs_mul hb) hproduct
  refine (isNearest_mul_mul_iff one_pos).mp ?_
  rwa [Nat.mul_one, ← hunits]

/-- The quotient of whole doubles other than zero is the nearest to their fraction. -/
theorem isNearest_whole_div (hx : whole? x = some a) (hy : whole? y = some b) (ha : a ≠ 0)
    (hb : b ≠ 0) (hfits : a.natAbs < 2 ^ 1023) :
    IsNearest (x / y) (a * b.sign * one) b.natAbs := by
  rw [whole?_eq_some_iff] at hx hy
  have hdividend : (a * one).natAbs * one < (b * one).natAbs * 2 ^ 2097 := by
    rw [Int.natAbs_mul, Int.natAbs_mul, Int.natAbs_natCast, Nat.mul_right_comm b.natAbs]
    refine (Nat.mul_lt_mul_right one_pos).mpr ?_
    calc a.natAbs * one < 2 ^ 2097 := fits_of_lt hfits
      _ ≤ b.natAbs * 2 ^ 2097 := Nat.le_mul_of_pos_left _ (Int.natAbs_pos.mpr hb)
  have hnearest := isNearest_div hx hy (one_le_natAbs_mul ha)
    (ne_zero_of_one_le (one_le_natAbs_mul hb)) hdividend
  have hunits : a * one * (b * one).sign * one = (one : Int) * (a * b.sign * one) := by
    rw [sign_mul_one]
    ring
  refine (isNearest_mul_mul_iff one_pos).mp ?_
  rwa [← hunits, Nat.mul_comm one, ← Int.natAbs_natCast one, ← Int.natAbs_mul,
    Int.natAbs_natCast]

end Whole

end ScalarExpr.Binary64
