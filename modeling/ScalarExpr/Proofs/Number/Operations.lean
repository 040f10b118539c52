import ScalarExpr.Proofs.Number.Machine

/-!
# Sums, differences, products and quotients of doubles

Each operation of the machine gives the double nearest its exact result. A double is seen as a whole
number of units of `2 ^ -1074`, so the exact result is a fraction of units; it has to be small enough
not to round to infinity.
-/

namespace ScalarExpr.Binary64

open Float.Model (Format UnpackedFloat totalExponent)
open Float.Model.UnpackedFloat (Sign ExtendedMantissa Accuracy roundWithAccuracy decreaseExponent
  divCore)

/-- A double is the nearest to a fraction of units. -/
def IsNearest (x : Float) (num : Int) (den : Nat) : Prop :=
  ∃ magnitude, Nearest num.natAbs den magnitude ∧ units? x = some (num.sign * magnitude)

/-- The units of one are a power of two. -/
theorem one_eq : one = 2 ^ 1074 := by
  -- The exponent is named, so that the power is not evaluated.
  obtain ⟨exponent, hexponent⟩ : ∃ exponent, exponent = 1074 := ⟨1074, rfl⟩
  unfold one
  rw [← hexponent]

/-- One has units. -/
theorem one_pos : 0 < one := by
  rw [one_eq]
  positivity

/-- What a double with the opposite sign stands for. -/
def Decoded.negate : Decoded → Decoded
  | .nan => .nan
  | .infinity negative => .infinity (!negative)
  | .finite negative mantissa step => .finite (!negative) mantissa step

section Sign

/-- A sign does not change a magnitude. -/
@[simp] theorem natAbs_withSign (negative : Bool) (n : Nat) : (withSign negative n).natAbs = n := by
  cases negative <;> simp [withSign]

/-- A sign goes in front of a magnitude. -/
theorem withSign_eq_sign_mul {n : Nat} (hn : 0 < n) (negative : Bool) (m : Nat) :
    withSign negative m = (withSign negative n).sign * m := by
  have hsign : (n : Int).sign = 1 := Int.sign_eq_one_of_pos (by omega)
  cases negative <;> simp [withSign, Int.sign_neg, hsign]

/-- A number is its magnitude with its sign. -/
theorem withSign_natAbs (n : Int) : withSign (decide (n < 0)) n.natAbs = n := by
  by_cases h : n < 0
  · rw [decide_eq_true h, withSign, if_pos rfl]
    omega
  · rw [decide_eq_false h, withSign, if_neg (by decide)]
    omega

/-- The sign of a product. -/
theorem withSign_mul (a b : Bool) (m n : Nat) :
    withSign a m * withSign b n = withSign (a ^^ b) (m * n) := by
  cases a <;> cases b <;> simp [withSign]

/-- A factor without a sign. -/
theorem withSign_nat_mul (negative : Bool) (m n : Nat) :
    withSign negative (m * n) = m * withSign negative n := by
  cases negative <;> simp [withSign]

/-- The machine's sign of a product. -/
theorem signOf_mul (a b : Bool) : signOf a * signOf b = signOf (a ^^ b) := by
  cases a <;> cases b <;> rfl

/-- The machine's sign of a quotient. -/
theorem signOf_div (a b : Bool) : signOf a / signOf b = signOf (a ^^ b) := by
  cases a <;> cases b <;> rfl

/-- The machine turns the sign of what a double stands for. -/
theorem unpacked_negate (d : Decoded) : d.negate.unpacked = d.unpacked.neg := by
  cases d with
  | nan => rfl
  | infinity negative => cases negative <;> rfl
  | finite negative mantissa step => cases mantissa <;> cases negative <;> rfl

/-- The machine's opposite sign turns a number into its opposite. -/
theorem apply_neg (sign : Sign) (n : Int) : (-sign).apply n = -sign.apply n := by
  cases sign with
  | negative => exact (Int.neg_neg n).symm
  | positive => rfl

/-- The machine puts a sign in front as it is meant. -/
theorem apply_signOf (negative : Bool) (n : Nat) : (signOf negative).apply n = withSign negative n := by
  cases negative <;> rfl

end Sign

section Rounding

variable {num den step : Nat}

/-- A rounded mantissa has as many units as at its step. -/
theorem units?_ofRounded (negative : Bool) (mantissa step : Nat) :
    (Decoded.ofRounded negative mantissa step).units? =
      some (withSign negative (mantissa * 2 ^ step)) := by
  unfold Decoded.ofRounded
  by_cases hcarry : mantissa = 2 ^ 53
  · have hpow : 2 ^ 52 * 2 ^ (step + 1) = 2 ^ 53 * 2 ^ step := by ring
    rw [if_pos hcarry, hcarry, Decoded.units?, hpow]
  · rw [if_neg hcarry, Decoded.units?]

/-- A fraction that is not too large is rounded to what fits into bits. -/
theorem canonical_ofRounded (negative : Bool) (hden : 0 < den) (hstep : StepOf num den step)
    (hfits : num < den * 2 ^ 2097) :
    (Decoded.ofRounded negative (roundHalfEven num (den * 2 ^ step)) step).Canonical := by
  obtain ⟨hhigh, hlow, hlast⟩ := hstep.mantissa hden hfits
  unfold Decoded.ofRounded
  by_cases hcarry : roundHalfEven num (den * 2 ^ step) = 2 ^ 53
  · rw [if_pos hcarry]
    exact ⟨by decide, by omega, .inr (by decide)⟩
  · rw [if_neg hcarry]
    exact ⟨by omega, by omega, hlow⟩

/-- A fraction that the machine has divided is rounded to the nearest double. -/
theorem isNearest_roundWithAccuracy {x : Float} (negative : Bool) {scale : Nat}
    {accuracy : Accuracy} (hden : 0 < den) (hnum : 0 < num)
    (haccuracy : ExtendedMantissa.ofMantissaAndAccuracy (num / den) accuracy = extended num den)
    (hbits : scale = 0 ∨ 2 ^ 52 ≤ num / den) (hfits : num * 2 ^ scale < den * 2 ^ 2097)
    (hx : x = .ofModel (.pack (roundWithAccuracy Format.binary64 (signOf negative) (num / den)
      (scale - 1074) accuracy))) :
    IsNearest x (withSign negative (num * 2 ^ scale)) den := by
  obtain ⟨step, hstep, hround⟩ := roundWithAccuracy_eq negative hden haccuracy hbits
  refine ⟨_, ⟨step, by rwa [natAbs_withSign], rfl⟩, ?_⟩
  rw [natAbs_withSign, units?, hx, hround,
    decode_ofModel_pack (canonical_ofRounded negative hden hstep hfits), units?_ofRounded,
    ← withSign_eq_sign_mul (by positivity)]

/-- A mantissa is rounded to the nearest double, also after a shift to the left. -/
theorem isNearest_round {x : Float} (negative : Bool) {mantissa scale : Nat} (hpos : 0 < mantissa)
    (hfits : mantissa * 2 ^ scale < 2 ^ 2097)
    (hx : x = .ofModel (.pack (UnpackedFloat.round Format.binary64 (signOf negative) mantissa
      (scale - 1074)))) :
    IsNearest x (withSign negative (mantissa * 2 ^ scale)) 1 := by
  have hshift : (((scale : Int) - 1074) - (((mantissa.log2 + scale - 52 : Nat) : Int) - 1074)).toNat =
      scale - (mantissa.log2 + scale - 52) := by
    omega
  have hle : scale - (mantissa.log2 + scale - 52) ≤ scale := Nat.sub_le _ _
  have hbits : scale - (scale - (mantissa.log2 + scale - 52)) = 0 ∨
      2 ^ 52 ≤ mantissa * 2 ^ (scale - (mantissa.log2 + scale - 52)) / 1 := by
    have hlog : 2 ^ mantissa.log2 ≤ mantissa := Nat.log2_self_le (Nat.ne_of_gt hpos)
    rcases Nat.lt_or_ge (mantissa.log2 + scale) 52 with hsmall | hlarge
    · omega
    · refine .inr ?_
      rw [Nat.div_one]
      calc 2 ^ 52 ≤ 2 ^ (mantissa.log2 + (scale - (mantissa.log2 + scale - 52))) :=
            Nat.pow_le_pow_right (by decide) (by omega)
        _ = 2 ^ mantissa.log2 * 2 ^ (scale - (mantissa.log2 + scale - 52)) := pow_add ..
        _ ≤ mantissa * 2 ^ (scale - (mantissa.log2 + scale - 52)) := Nat.mul_le_mul_right _ hlog
  have hunits : mantissa * 2 ^ (scale - (mantissa.log2 + scale - 52)) *
      2 ^ (scale - (scale - (mantissa.log2 + scale - 52))) = mantissa * 2 ^ scale := by
    rw [Nat.mul_assoc, ← pow_add, Nat.add_sub_cancel' hle]
  unfold UnpackedFloat.round decreaseExponent at hx
  dsimp only at hx
  rw [targetExponent_eq, hshift] at hx
  rw [← hunits] at hfits ⊢
  generalize scale - (mantissa.log2 + scale - 52) = j at *
  have hexact : ExtendedMantissa.ofMantissaAndAccuracy (mantissa * 2 ^ j / 1) .exact =
      extended (mantissa * 2 ^ j) 1 := by
    rw [Nat.div_one]
    exact ofMantissaAndAccuracy_exact _
  have hexponent : (scale : Int) - 1074 - j = ((scale - j : Nat) : Int) - 1074 := by omega
  refine isNearest_roundWithAccuracy negative Nat.one_pos (by positivity) hexact hbits
    (by rwa [Nat.one_mul]) ?_
  rw [hx, Nat.div_one, Nat.shiftLeft_eq, hexponent]

/-- A zero of either sign is zero. -/
theorem isNearest_zero {x : Float} (negative : Bool)
    (hx : x = .ofModel (.pack (.zero (signOf negative)))) : IsNearest x 0 1 := by
  have hdecode : decode x = .finite negative 0 0 := by
    rw [hx]
    cases negative <;> rfl
  refine ⟨0, ⟨0, ⟨by decide, .inl rfl⟩, by decide⟩, ?_⟩
  rw [units?, hdecode]
  cases negative <;> rfl

/-- A signed mantissa is rounded to the nearest double. -/
theorem isNearest_normalize {x : Float} {mantissa : Int} {scale : Nat}
    (hfits : mantissa.natAbs * 2 ^ scale < 2 ^ 2097)
    (hx : x = .ofModel (.pack (UnpackedFloat.normalize Format.binary64 mantissa (scale - 1074) (signOf false)))) :
    IsNearest x (mantissa * 2 ^ scale) 1 := by
  rcases Int.lt_trichotomy mantissa 0 with hlt | rfl | hgt
  · have habs : (-mantissa).toNat = mantissa.natAbs := by omega
    have hunits : mantissa * 2 ^ scale = withSign true (mantissa.natAbs * 2 ^ scale) := by
      rw [withSign, if_pos rfl, Nat.cast_mul, ← Int.neg_mul, Nat.cast_pow]
      congr 1
      omega
    rw [hunits]
    refine isNearest_round true (by omega) hfits ?_
    rw [hx, UnpackedFloat.normalize, Int.compare_eq_lt.mpr hlt]
    simp only [habs]
    rfl
  · rw [Int.zero_mul]
    exact isNearest_zero false hx
  · have habs : mantissa.toNat = mantissa.natAbs := by omega
    have hunits : mantissa * 2 ^ scale = withSign false (mantissa.natAbs * 2 ^ scale) := by
      rw [withSign, if_neg (by decide), Nat.cast_mul, Nat.cast_pow]
      congr 1
      omega
    rw [hunits]
    refine isNearest_round false (by omega) hfits ?_
    rw [hx, UnpackedFloat.normalize, Int.compare_eq_gt.mpr hgt]
    simp only [habs]
    rfl

end Rounding

section Operands

variable {x y : Float} {u v : Int}

/-- The machine takes a double other than zero apart into a sign, a mantissa and a step. -/
theorem exists_unpack_of_units (h : units? x = some u) (hne : u ≠ 0) :
    ∃ (negative : Bool) (mantissa step : Nat), ∃ hpos : 0 < mantissa,
      x.toModel.unpack = .finite (signOf negative) mantissa ((step : Int) - 1074) hpos ∧
      u = withSign negative (mantissa * 2 ^ step) ∧
      (Decoded.finite negative mantissa step).Canonical := by
  have hcanonical : (decode x).Canonical := canonical_decodeBits _
  rw [unpack_toModel]
  unfold units? at h
  cases hdecode : decode x with
  | nan | infinity =>
    rw [hdecode] at h
    cases h
  | finite negative mantissa step =>
    rw [hdecode] at h hcanonical
    cases h
    have hpos : 0 < mantissa := by
      apply Nat.pos_of_ne_zero
      rintro rfl
      cases negative <;> simp [withSign] at hne
    exact ⟨negative, mantissa, step, hpos, Decoded.unpacked_finite hpos rfl rfl, rfl, hcanonical⟩

/-- A double without units is a zero of some sign. -/
theorem exists_unpack_of_zero (h : units? x = some 0) :
    ∃ negative, x.toModel.unpack = .zero (signOf negative) := by
  rw [unpack_toModel]
  unfold units? at h
  cases hdecode : decode x with
  | nan | infinity =>
    rw [hdecode] at h
    cases h
  | finite negative mantissa step =>
    rw [hdecode, Decoded.units?, Option.some.injEq] at h
    have hzero : mantissa * 2 ^ step = 0 := by
      have := congrArg Int.natAbs h
      rwa [natAbs_withSign] at this
    have hmantissa : mantissa = 0 :=
      (Nat.mul_eq_zero.mp hzero).resolve_right (by positivity)
    subst hmantissa
    exact ⟨negative, rfl⟩

/-- A mantissa that fits into bits is kept. -/
theorem isNearest_finite {negative : Bool} {mantissa step : Nat} {hpos : 0 < mantissa}
    (h : (Decoded.finite negative mantissa step).Canonical)
    (hx : x = .ofModel (.pack (.finite (signOf negative) mantissa (step - 1074) hpos))) :
    IsNearest x (withSign negative (mantissa * 2 ^ step)) 1 := by
  obtain ⟨hmantissa, -, hnormal⟩ := id h
  refine ⟨mantissa * 2 ^ step, ⟨step, ?_, ?_⟩, ?_⟩
  · rw [natAbs_withSign]
    exact stepOf_units hmantissa hnormal
  · rw [natAbs_withSign, Nat.one_mul, roundHalfEven_mul _ _ (by positivity)]
  · rw [units?, hx, ← Decoded.unpacked_finite hpos rfl rfl, decode_ofModel_pack h, Decoded.units?,
      ← withSign_eq_sign_mul (by positivity)]

end Operands

section Operations

/-- A mantissa gains the bits by which its exponent is lowered. -/
theorem fst_decreaseExponent (mantissa low i : Nat) :
    (decreaseExponent mantissa (((low + i : Nat) : Int) - 1074) (low - 1074)).1 =
      mantissa * 2 ^ i := by
  have hshift : (((low + i : Nat) : Int) - 1074 - ((low : Int) - 1074)).toNat = i := by omega
  unfold decreaseExponent
  dsimp only
  rw [hshift, Nat.shiftLeft_eq]

/-- The machine adds two mantissas once it has brought them to the lower exponent. -/
theorem add_finite (a b : Sign) {m n : Nat} {e f : Int} (hm : 0 < m) (hn : 0 < n) :
    UnpackedFloat.add Format.binary64 (.finite a m e hm) (.finite b n f hn) =
      UnpackedFloat.normalize Format.binary64 (a.apply (decreaseExponent m e (min e f)).1 +
        b.apply (decreaseExponent n f (min e f)).1) (min e f) .positive := rfl

/-- The machine subtracts them likewise. -/
theorem sub_finite (a b : Sign) {m n : Nat} {e f : Int} (hm : 0 < m) (hn : 0 < n) :
    UnpackedFloat.sub Format.binary64 (.finite a m e hm) (.finite b n f hn) =
      UnpackedFloat.normalize Format.binary64 (a.apply (decreaseExponent m e (min e f)).1 -
        b.apply (decreaseExponent n f (min e f)).1) (min e f) .positive := rfl

variable {x y : Float} {u v : Int}

/-- The sum of two doubles is the double nearest their exact sum. -/
theorem isNearest_add (hx : units? x = some u) (hy : units? y = some v)
    (hfits : (u + v).natAbs < 2 ^ 2097) : IsNearest (x + y) (u + v) 1 := by
  have hadd : x + y = .ofModel (.pack (UnpackedFloat.add Format.binary64 x.toModel.unpack
      y.toModel.unpack)) := rfl
  by_cases hu : u = 0
  · subst hu
    obtain ⟨a, hxzero⟩ := exists_unpack_of_zero hx
    rw [hxzero] at hadd
    by_cases hv : v = 0
    · subst hv
      obtain ⟨b, hyzero⟩ := exists_unpack_of_zero hy
      rw [hyzero] at hadd
      refine isNearest_zero (a && b) (hadd.trans ?_)
      cases a <;> cases b <;> rfl
    · obtain ⟨b, n, t, hn, hyfinite, rfl, hcanonical⟩ := exists_unpack_of_units hy hv
      rw [hyfinite] at hadd
      rw [Int.zero_add]
      exact isNearest_finite hcanonical hadd
  · obtain ⟨a, m, s, hm, hxfinite, rfl, hcanonical⟩ := exists_unpack_of_units hx hu
    rw [hxfinite] at hadd
    by_cases hv : v = 0
    · subst hv
      obtain ⟨b, hyzero⟩ := exists_unpack_of_zero hy
      rw [hyzero] at hadd
      rw [Int.add_zero]
      exact isNearest_finite hcanonical hadd
    · obtain ⟨b, n, t, hn, hyfinite, rfl, -⟩ := exists_unpack_of_units hy hv
      rw [hyfinite] at hadd
      obtain ⟨low, i, j, rfl, rfl, hlow⟩ : ∃ low i j, s = low + i ∧ t = low + j ∧
          min ((s : Int) - 1074) ((t : Int) - 1074) = (low : Int) - 1074 :=
        ⟨min s t, s - min s t, t - min s t, by omega, by omega, by omega⟩
      have hsum : withSign a (m * 2 ^ (low + i)) + withSign b (n * 2 ^ (low + j)) =
          (withSign a (m * 2 ^ i) + withSign b (n * 2 ^ j)) * 2 ^ low := by
        rw [pow_add, pow_add, Int.add_mul]
        cases a <;> cases b <;> simp only [withSign] <;> push_cast <;> ring
      have hpow : ((2 : Int) ^ low).natAbs = 2 ^ low := Int.natAbs_pow 2 low
      rw [hsum, Int.natAbs_mul, hpow] at hfits
      rw [hsum]
      refine isNearest_normalize hfits (hadd.trans ?_)
      rw [add_finite, hlow, fst_decreaseExponent, fst_decreaseExponent, apply_signOf, apply_signOf]
      rfl

/-- The opposite of a double stands for the opposite value. -/
theorem decode_neg (x : Float) : decode (-x) = (decode x).negate := by
  have hneg : -x = .ofModel (.pack x.toModel.unpack.neg) := rfl
  have hcanonical : (decode x).Canonical := canonical_decodeBits _
  rw [hneg, unpack_toModel]
  generalize decode x = d at *
  have hflipped : d.negate.Canonical := by
    cases d with
    | nan | infinity => trivial
    | finite negative mantissa step => exact hcanonical
  rw [← unpacked_negate, decode_ofModel_pack hflipped]

/-- The opposite of a double has the opposite units. -/
theorem units?_neg (h : units? x = some u) : units? (-x) = some (-u) := by
  unfold units? at h ⊢
  rw [decode_neg]
  cases hdecode : decode x with
  | nan | infinity =>
    rw [hdecode] at h
    cases h
  | finite negative mantissa step =>
    rw [hdecode] at h
    cases h
    cases negative <;> simp [Decoded.negate, Decoded.units?, withSign]

/-- The machine subtracts by adding the opposite. -/
theorem sub_eq_add_neg (x y : Float) : x - y = x + -y := by
  have hadd : x + -y = .ofModel (.pack (UnpackedFloat.add Format.binary64 x.toModel.unpack
      (-y).toModel.unpack)) := rfl
  have hsub : x - y = .ofModel (.pack (UnpackedFloat.sub Format.binary64 x.toModel.unpack
      y.toModel.unpack)) := rfl
  have hneg : (-y).toModel.unpack = y.toModel.unpack.neg := by
    rw [unpack_toModel, unpack_toModel, decode_neg, unpacked_negate]
  rw [hadd, hsub, hneg]
  congr 2
  cases x.toModel.unpack with
  | notANumber | zero a | infinity a => cases y.toModel.unpack <;> rfl
  | finite a m e hm =>
    cases y.toModel.unpack with
    | notANumber | zero b | infinity b => rfl
    | finite b n f hn =>
      have hopposite : UnpackedFloat.neg (.finite b n f hn) = .finite (-b) n f hn := rfl
      rw [hopposite, sub_finite, add_finite, apply_neg, Int.sub_eq_add_neg]

/-- The difference of two doubles is the double nearest their exact difference. -/
theorem isNearest_sub (hx : units? x = some u) (hy : units? y = some v)
    (hfits : (u - v).natAbs < 2 ^ 2097) : IsNearest (x - y) (u - v) 1 := by
  rw [sub_eq_add_neg x y]
  exact isNearest_add hx (units?_neg hy) hfits

/-- A common factor of a fraction does not matter. -/
theorem isNearest_mul_mul_iff {num : Int} {den c : Nat} (hc : 0 < c) :
    IsNearest x (c * num) (c * den) ↔ IsNearest x num den := by
  have hsign : ((c : Int) * num).sign = num.sign := by
    rw [Int.sign_mul, Int.sign_eq_one_of_pos (by omega), Int.one_mul]
  have habs : ((c : Int) * num).natAbs = c * num.natAbs := by
    rw [Int.natAbs_mul, Int.natAbs_natCast]
  unfold IsNearest
  simp only [hsign, habs, Nearest.mul_mul_iff hc]

/-- What is at least one in size is not zero. -/
theorem ne_zero_of_one_le {n : Int} (h : one ≤ n.natAbs) : n ≠ 0 :=
  Int.natAbs_pos.mp (Nat.lt_of_lt_of_le one_pos h)

/-- A double that is at least one in size has a mantissa of 53 bits. -/
theorem step_of_one_le {negative : Bool} {mantissa step : Nat}
    (h : (Decoded.finite negative mantissa step).Canonical) (hle : one ≤ mantissa * 2 ^ step) :
    1022 ≤ step ∧ 2 ^ 52 ≤ mantissa := by
  obtain ⟨hmantissa, -, hnormal⟩ := h
  have hlt : 2 ^ 1074 < 2 ^ (53 + step) := by
    calc 2 ^ 1074 = one := one_eq.symm
      _ ≤ mantissa * 2 ^ step := hle
      _ < 2 ^ 53 * 2 ^ step := (Nat.mul_lt_mul_right (by positivity)).mpr hmantissa
      _ = 2 ^ (53 + step) := (pow_add ..).symm
  have hstep := (Nat.pow_lt_pow_iff_right (by decide)).mp hlt
  exact ⟨by omega, hnormal.resolve_left (by omega)⟩

/-- The machine multiplies two mantissas and rounds the product. -/
theorem mul_finite (a b : Sign) {m n : Nat} {e f : Int} (hm : 0 < m) (hn : 0 < n) :
    UnpackedFloat.mul Format.binary64 (.finite a m e hm) (.finite b n f hn) =
      roundWithAccuracy Format.binary64 (a * b) (m * n) (e + f) .exact := rfl

/-- The product of two doubles that are at least one in size is the double nearest their exact
product. -/
theorem isNearest_mul (hx : units? x = some u) (hy : units? y = some v) (hu : one ≤ u.natAbs)
    (hv : one ≤ v.natAbs) (hfits : (u * v).natAbs < one * 2 ^ 2097) :
    IsNearest (x * y) (u * v) one := by
  have hmul : x * y = .ofModel (.pack (UnpackedFloat.mul Format.binary64 x.toModel.unpack
      y.toModel.unpack)) := rfl
  obtain ⟨a, m, s, hm, hxfinite, rfl, hxcanonical⟩ := exists_unpack_of_units hx (ne_zero_of_one_le hu)
  obtain ⟨b, n, t, hn, hyfinite, rfl, hycanonical⟩ := exists_unpack_of_units hy (ne_zero_of_one_le hv)
  rw [natAbs_withSign] at hu hv
  obtain ⟨hs, hmbits⟩ := step_of_one_le hxcanonical hu
  obtain ⟨ht, -⟩ := step_of_one_le hycanonical hv
  obtain ⟨scale, hscale⟩ : ∃ scale, s + t = 1074 + scale := ⟨s + t - 1074, by omega⟩
  have hproduct : m * 2 ^ s * (n * 2 ^ t) = one * (m * n * 2 ^ scale) := by
    calc m * 2 ^ s * (n * 2 ^ t) = m * n * 2 ^ (s + t) := by rw [pow_add]; ring
      _ = one * (m * n * 2 ^ scale) := by rw [hscale, pow_add, ← one_eq, Nat.mul_left_comm]
  have hunits : withSign a (m * 2 ^ s) * withSign b (n * 2 ^ t) =
      one * withSign (a ^^ b) (m * n * 2 ^ scale) := by
    rw [withSign_mul, hproduct, withSign_nat_mul]
  have hexponent : ((s : Int) - 1074) + ((t : Int) - 1074) = (scale : Int) - 1074 := by omega
  have hexact : ExtendedMantissa.ofMantissaAndAccuracy (m * n / 1) .exact = extended (m * n) 1 := by
    rw [Nat.div_one]
    exact ofMantissaAndAccuracy_exact _
  have hbits : 2 ^ 52 ≤ m * n / 1 := by
    rw [Nat.div_one]
    exact Nat.le_trans hmbits (Nat.le_mul_of_pos_right m hn)
  have hnearest : IsNearest (x * y) (withSign (a ^^ b) (m * n * 2 ^ scale)) 1 := by
    refine isNearest_roundWithAccuracy _ Nat.one_pos (by positivity) hexact (.inr hbits) ?_ ?_
    · rw [withSign_mul, natAbs_withSign, hproduct] at hfits
      rw [Nat.one_mul]
      exact Nat.lt_of_mul_lt_mul_left hfits
    · rw [hmul, hxfinite, hyfinite, mul_finite, signOf_mul, hexponent, Nat.div_one]
  have hscaled := (isNearest_mul_mul_iff one_pos).mpr hnearest
  rwa [Nat.mul_one, ← hunits] at hscaled

/-- The machine lowers the exponent of a dividend until its quotient has 53 bits, or until there is no
lower exponent. -/
theorem exists_divCore {m n s t : Nat} (hm : 0 < m) (hn : 0 < n) (hst : t ≤ s + 1074) :
    ∃ scale shift, s + 1074 = t + (scale + shift) ∧
      divCore Format.binary64 m (s - 1074) n (t - 1074) =
        (m * 2 ^ shift / n, (scale : Int) - 1074,
          Float.Model.UnpackedFloat.accuracyOfFraction (m * 2 ^ shift % n) n) ∧
      (scale = 0 ∨ 2 ^ 52 ≤ m * 2 ^ shift / n) := by
  obtain ⟨scale, hscale, htarget⟩ : ∃ scale : Nat, scale ≤ s + 1074 - t ∧
      min (((s : Int) - 1074) - (t - 1074)) (Format.binary64.targetExponent
        (totalExponent m (s - 1074) - totalExponent n (t - 1074))) = (scale : Int) - 1074 ∧
      (scale = 0 ∨ scale + n.log2 + t + 53 ≤ m.log2 + s + 1074) := by
    simp only [targetExponent_binary64, totalExponent]
    exact ⟨min (s + 1074 - t) (m.log2 + s + 1074 - (n.log2 + t + 53)), by omega, by omega, by omega⟩
  obtain ⟨htarget, hlow⟩ := htarget
  refine ⟨scale, s + 1074 - t - scale, by omega, ?_, ?_⟩
  · have hshift : (((s : Int) - 1074) - (t - 1074) - (scale - 1074)).toNat =
        s + 1074 - t - scale := by
      omega
    unfold divCore
    dsimp only
    rw [htarget, hshift, Nat.shiftLeft_eq]
  · refine hlow.imp_right fun hle => (Nat.le_div_iff_mul_le hn).mpr ?_
    calc 2 ^ 52 * n ≤ 2 ^ 52 * 2 ^ (n.log2 + 1) :=
          Nat.mul_le_mul_left _ (Nat.le_of_lt Nat.lt_log2_self)
      _ = 2 ^ (52 + (n.log2 + 1)) := (pow_add ..).symm
      _ ≤ 2 ^ (m.log2 + (s + 1074 - t - scale)) := Nat.pow_le_pow_right (by decide) (by omega)
      _ = 2 ^ m.log2 * 2 ^ (s + 1074 - t - scale) := pow_add ..
      _ ≤ m * 2 ^ (s + 1074 - t - scale) :=
        Nat.mul_le_mul_right _ (Nat.log2_self_le (Nat.ne_of_gt hm))

/-- The machine divides two mantissas and rounds the quotient by what is left of the dividend. -/
theorem div_finite (a b : Sign) {m n : Nat} {e f : Int} (hm : 0 < m) (hn : 0 < n) :
    UnpackedFloat.div Format.binary64 (.finite a m e hm) (.finite b n f hn) =
      roundWithAccuracy Format.binary64 (a / b) (divCore Format.binary64 m e n f).1
        (divCore Format.binary64 m e n f).2.1 (divCore Format.binary64 m e n f).2.2 := rfl

/-- The quotient of two doubles, the first at least one in size, is the double nearest their exact
quotient. -/
theorem isNearest_div (hx : units? x = some u) (hy : units? y = some v) (hu : one ≤ u.natAbs)
    (hv : v ≠ 0) (hfits : u.natAbs * one < v.natAbs * 2 ^ 2097) :
    IsNearest (x / y) (u * v.sign * one) v.natAbs := by
  have hdiv : x / y = .ofModel (.pack (UnpackedFloat.div Format.binary64 x.toModel.unpack
      y.toModel.unpack)) := rfl
  obtain ⟨a, m, s, hm, hxfinite, rfl, hxcanonical⟩ := exists_unpack_of_units hx (ne_zero_of_one_le hu)
  obtain ⟨b, n, t, hn, hyfinite, rfl, -, ht, -⟩ := exists_unpack_of_units hy hv
  rw [natAbs_withSign] at hu
  obtain ⟨hs, -⟩ := step_of_one_le hxcanonical hu
  obtain ⟨scale, shift, hshift, hcore, hbits⟩ := exists_divCore hm hn (by omega : t ≤ s + 1074)
  have hdividend : m * 2 ^ s * one = 2 ^ t * (m * 2 ^ shift * 2 ^ scale) := by
    calc m * 2 ^ s * one = m * 2 ^ (s + 1074) := by rw [pow_add, ← one_eq, Nat.mul_assoc]
      _ = 2 ^ t * (m * 2 ^ shift * 2 ^ scale) := by rw [hshift, pow_add, pow_add]; ring
  have hsign : (withSign b (n * 2 ^ t)).sign = withSign b 1 := by
    rw [← Int.mul_one (withSign b (n * 2 ^ t)).sign, ← Nat.cast_one,
      ← withSign_eq_sign_mul (by positivity)]
  have hunits : withSign a (m * 2 ^ s) * (withSign b (n * 2 ^ t)).sign * one =
      ((2 ^ t : Nat) : Int) * withSign (a ^^ b) (m * 2 ^ shift * 2 ^ scale) := by
    have hone : (one : Int) = withSign false one := rfl
    rw [hsign, hone, withSign_mul, withSign_mul, Nat.mul_one, Bool.xor_false, hdividend,
      withSign_nat_mul]
  have hnearest : IsNearest (x / y) (withSign (a ^^ b) (m * 2 ^ shift * 2 ^ scale)) n := by
    refine isNearest_roundWithAccuracy _ hn (by positivity) (ofMantissaAndAccuracy_fraction hn) hbits
      ?_ ?_
    · rw [natAbs_withSign, natAbs_withSign, hdividend] at hfits
      refine Nat.lt_of_mul_lt_mul_left (a := 2 ^ t) ?_
      calc 2 ^ t * (m * 2 ^ shift * 2 ^ scale) < n * 2 ^ t * 2 ^ 2097 := hfits
        _ = 2 ^ t * (n * 2 ^ 2097) := by rw [Nat.mul_comm n, Nat.mul_assoc]
    · rw [hdiv, hxfinite, hyfinite, div_finite, hcore, signOf_div]
  have hscaled := (isNearest_mul_mul_iff (c := 2 ^ t) (by positivity)).mpr hnearest
  rw [← hunits, Nat.mul_comm (2 ^ t) n] at hscaled
  rwa [natAbs_withSign]

end Operations

end ScalarExpr.Binary64
