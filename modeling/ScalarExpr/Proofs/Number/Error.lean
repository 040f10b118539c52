import ScalarExpr.Proofs.Number.Whole

/-!
# Whole numbers off the exact result

An operator on whole numbers that are no doubles rounds both operands first and then its result. What
the three roundings do to the result is found on magnitudes and put on integers by their signs.

A sum of magnitudes that reaches `2 ^ 63` does not fall below it when it is rounded. A product or a
quotient can come out on either side, at most `2 ^ -51` of it away.
-/

namespace ScalarExpr

namespace Binary64

namespace RoundsTo

section Sum

variable {p q P Q r : Nat}

/-- A magnitude of up to 63 bits is not rounded down by more than half a unit of the last place of
the largest. -/
theorem le_add_half (h : RoundsTo p 1 P) (hp : p ≤ 2 ^ 63) : p ≤ P + 512 := by
  rcases Nat.lt_or_ge p (2 ^ 62) with hsmall | hlarge
  · rcases Nat.eq_zero_or_pos p with hzero | hpos
    · omega
    · have herror := (h.error_lt Nat.one_pos hpos (by decide)).2
      omega
  · obtain ⟨mantissa, -, hbelow, -⟩ := h.exists_mantissa (j := 10) hlarge hp
    omega

/-- The sum of two rounded magnitudes stays so close to `2 ^ 63` that it is rounded up to it. The
larger magnitude is rounded to a multiple of 1024, and what the other adds up to such a multiple is
kept but for a half of it. -/
theorem le_sum (hp : RoundsTo p 1 P) (hq : RoundsTo q 1 Q) (hple : p ≤ 2 ^ 63) (hqp : q ≤ p)
    (hsum : 2 ^ 63 ≤ p + q) : 2 ^ 63 ≤ P + Q + 512 := by
  obtain ⟨k, rfl, hbelow, habove⟩ := hp.exists_mantissa (j := 10) (by omega) hple
  -- The smaller magnitude is at least `1024 * rest - 512`, which has few enough bits to be kept.
  obtain ⟨rest, hrest⟩ : ∃ rest, 2 ^ 53 = k + rest := Nat.exists_eq_add_of_le (by omega)
  have hkept := hq.le_of_le (q := 2 * rest - 1) (j := 9) Nat.one_pos (by omega) (by omega)
  omega

/-- The rounded sum of two rounded magnitudes that add up to `2 ^ 63` or more is not less, and it is
no more only if they add up to little more. -/
theorem add_bounds (hp : RoundsTo p 1 P) (hq : RoundsTo q 1 Q) (hr : RoundsTo (P + Q) 1 r)
    (hple : p ≤ 2 ^ 63) (hqle : q ≤ 2 ^ 63) (hsum : 2 ^ 63 ≤ p + q) :
    2 ^ 63 ≤ r ∧ (r ≤ 2 ^ 63 → p + q ≤ 2 ^ 63 + 2048) := by
  have hclose : 2 ^ 63 ≤ P + Q + 512 := by
    rcases Nat.le_total q p with hqp | hpq
    · exact hp.le_sum hq hple hqp hsum
    · rw [Nat.add_comm P Q]
      exact hq.le_sum hp hqle hpq (by omega)
  have hhalf : (2 ^ 54 - 1) * 2 ^ 9 * 1 ≤ P + Q := by
    calc (2 ^ 54 - 1) * 2 ^ 9 * 1 = 2 ^ 63 - 512 := by decide
      _ ≤ P + Q := Nat.sub_le_iff_le_add.mpr hclose
  refine ⟨hr.two_pow_le (j := 9) Nat.one_pos hhalf, fun hrle => ?_⟩
  have hP := hp.le_of_ge (q := 1) (j := 63) Nat.one_pos (by decide) (by omega)
  have hQ := hq.le_of_ge (q := 1) (j := 63) Nat.one_pos (by decide) (by omega)
  have hPlow := hp.le_add_half hple
  have hQlow := hq.le_add_half hqle
  rcases Nat.lt_or_ge (P + Q) (2 ^ 63) with hlt | hge
  · omega
  · obtain ⟨mantissa, -, hbelow, -⟩ := hr.exists_mantissa (j := 11) hge (by omega)
    omega

end Sum

section Product

variable {p q P Q r : Nat}

/-- A magnitude that is not zero is moved by no more than itself over `2 ^ 53`. -/
theorem error_le (h : RoundsTo p 1 P) (hp : 0 < p) :
    2 ^ 53 * P ≤ (2 ^ 53 + 1) * p ∧ (2 ^ 53 - 1) * p ≤ 2 ^ 53 * P := by
  have herror := h.error_lt Nat.one_pos hp (by decide)
  omega

/-- A magnitude that is not zero is not rounded to zero. -/
theorem pos (h : RoundsTo p 1 P) (hp : 0 < p) : 0 < P :=
  h.le_of_le (q := 1) (j := 0) Nat.one_pos (by decide) (by omega)

/-- The rounded product of two rounded magnitudes is off by three roundings. -/
theorem mul_error (hp : RoundsTo p 1 P) (hq : RoundsTo q 1 Q) (hr : RoundsTo (P * Q) 1 r)
    (hppos : 0 < p) (hqpos : 0 < q) :
    2 ^ 51 * r ≤ (2 ^ 51 + 1) * (p * q) ∧ (2 ^ 51 - 1) * (p * q) ≤ 2 ^ 51 * r := by
  obtain ⟨hphigh, hplow⟩ := hp.error_le hppos
  obtain ⟨hqhigh, hqlow⟩ := hq.error_le hqpos
  obtain ⟨hrhigh, hrlow⟩ := hr.error_le (Nat.mul_pos (hp.pos hppos) (hq.pos hqpos))
  have hscale : 0 < 2 ^ 108 := by decide
  refine ⟨Nat.le_of_mul_le_mul_left ?_ hscale, Nat.le_of_mul_le_mul_left ?_ hscale⟩
  · calc 2 ^ 108 * (2 ^ 51 * r) = 2 ^ 106 * (2 ^ 53 * r) := by ring
      _ ≤ 2 ^ 106 * ((2 ^ 53 + 1) * (P * Q)) := Nat.mul_le_mul_left _ hrhigh
      _ = (2 ^ 53 + 1) * ((2 ^ 53 * P) * (2 ^ 53 * Q)) := by ring
      _ ≤ (2 ^ 53 + 1) * (((2 ^ 53 + 1) * p) * ((2 ^ 53 + 1) * q)) :=
        Nat.mul_le_mul_left _ (Nat.mul_le_mul hphigh hqhigh)
      _ = (2 ^ 53 + 1) ^ 3 * (p * q) := by ring
      _ ≤ 2 ^ 108 * (2 ^ 51 + 1) * (p * q) := Nat.mul_le_mul_right _ (by decide)
      _ = 2 ^ 108 * ((2 ^ 51 + 1) * (p * q)) := Nat.mul_assoc ..
  · calc 2 ^ 108 * ((2 ^ 51 - 1) * (p * q)) = 2 ^ 108 * (2 ^ 51 - 1) * (p * q) :=
          (Nat.mul_assoc ..).symm
      _ ≤ (2 ^ 53 - 1) ^ 3 * (p * q) := Nat.mul_le_mul_right _ (by decide)
      _ = (2 ^ 53 - 1) * (((2 ^ 53 - 1) * p) * ((2 ^ 53 - 1) * q)) := by ring
      _ ≤ (2 ^ 53 - 1) * ((2 ^ 53 * P) * (2 ^ 53 * Q)) :=
        Nat.mul_le_mul_left _ (Nat.mul_le_mul hplow hqlow)
      _ = 2 ^ 106 * ((2 ^ 53 - 1) * (P * Q)) := by ring
      _ ≤ 2 ^ 106 * (2 ^ 53 * r) := Nat.mul_le_mul_left _ hrlow
      _ = 2 ^ 108 * (2 ^ 51 * r) := by ring

/-- The rounded quotient of two rounded magnitudes is off by three roundings. -/
theorem div_error (hp : RoundsTo p 1 P) (hq : RoundsTo q 1 Q) (hr : RoundsTo P Q r)
    (hppos : 0 < p) (hqpos : 0 < q) (hqle : q ≤ 2 ^ 63) :
    2 ^ 51 * (r * q) ≤ (2 ^ 51 + 1) * p ∧ (2 ^ 51 - 1) * p ≤ 2 ^ 51 * (r * q) := by
  obtain ⟨hphigh, hplow⟩ := hp.error_le hppos
  obtain ⟨hqhigh, hqlow⟩ := hq.error_le hqpos
  have hQle := hq.le_of_ge (q := 1) (j := 63) Nat.one_pos (by decide) (by omega)
  have hquotient := hr.error_lt (hq.pos hqpos) (hp.pos hppos) (by omega)
  have hrhigh : 2 ^ 53 * (r * Q) ≤ (2 ^ 53 + 1) * P := by omega
  have hrlow : (2 ^ 53 - 1) * P ≤ 2 ^ 53 * (r * Q) := by omega
  refine ⟨?_, ?_⟩
  · refine Nat.le_of_mul_le_mul_left ?_ (by decide : 0 < 2 ^ 53 * (2 ^ 53 - 1))
    calc 2 ^ 53 * (2 ^ 53 - 1) * (2 ^ 51 * (r * q)) = 2 ^ 104 * r * ((2 ^ 53 - 1) * q) := by ring
      _ ≤ 2 ^ 104 * r * (2 ^ 53 * Q) := Nat.mul_le_mul_left _ hqlow
      _ = 2 ^ 104 * (2 ^ 53 * (r * Q)) := by ring
      _ ≤ 2 ^ 104 * ((2 ^ 53 + 1) * P) := Nat.mul_le_mul_left _ hrhigh
      _ = 2 ^ 51 * (2 ^ 53 + 1) * (2 ^ 53 * P) := by ring
      _ ≤ 2 ^ 51 * (2 ^ 53 + 1) * ((2 ^ 53 + 1) * p) := Nat.mul_le_mul_left _ hphigh
      _ = 2 ^ 51 * (2 ^ 53 + 1) * (2 ^ 53 + 1) * p := by ring
      _ ≤ 2 ^ 53 * (2 ^ 53 - 1) * (2 ^ 51 + 1) * p := Nat.mul_le_mul_right _ (by decide)
      _ = 2 ^ 53 * (2 ^ 53 - 1) * ((2 ^ 51 + 1) * p) := Nat.mul_assoc ..
  · refine Nat.le_of_mul_le_mul_left ?_ (by decide : 0 < 2 ^ 53 * (2 ^ 53 + 1))
    calc 2 ^ 53 * (2 ^ 53 + 1) * ((2 ^ 51 - 1) * p) = 2 ^ 53 * (2 ^ 53 + 1) * (2 ^ 51 - 1) * p :=
          (Nat.mul_assoc ..).symm
      _ ≤ 2 ^ 51 * (2 ^ 53 - 1) * (2 ^ 53 - 1) * p := Nat.mul_le_mul_right _ (by decide)
      _ = 2 ^ 51 * (2 ^ 53 - 1) * ((2 ^ 53 - 1) * p) := Nat.mul_assoc ..
      _ ≤ 2 ^ 51 * (2 ^ 53 - 1) * (2 ^ 53 * P) := Nat.mul_le_mul_left _ hplow
      _ = 2 ^ 104 * ((2 ^ 53 - 1) * P) := by ring
      _ ≤ 2 ^ 104 * (2 ^ 53 * (r * Q)) := Nat.mul_le_mul_left _ hrlow
      _ = 2 ^ 104 * r * (2 ^ 53 * Q) := by ring
      _ ≤ 2 ^ 104 * r * ((2 ^ 53 + 1) * q) := Nat.mul_le_mul_left _ hqhigh
      _ = 2 ^ 53 * (2 ^ 53 + 1) * (2 ^ 51 * (r * q)) := by ring

/-- A quotient of magnitudes of 53 bits that is rounded to a whole number is exact. -/
theorem mul_eq_of_le (hr : RoundsTo p q r) (hp : p ≤ 2 ^ 53) (hppos : 0 < p) (hqpos : 0 < q)
    (hq : q ≤ 2 ^ 53) : r * q = p := by
  have herror := hr.error_lt hqpos hppos (by omega)
  omega

end Product

end RoundsTo

namespace SignedRoundsTo

variable {a b A B n : Int}

/-- The rounded sum of two rounded numbers that add up to `2 ^ 63` or more is not less, and it is no
more only if they add up to little more. -/
theorem add_bounds (ha : SignedRoundsTo a 1 A) (hb : SignedRoundsTo b 1 B)
    (hn : SignedRoundsTo (A + B) 1 n) (hale : a ≤ 2 ^ 63) (hble : b ≤ 2 ^ 63)
    (hsum : 2 ^ 63 ≤ a + b) : 2 ^ 63 ≤ n ∧ (n ≤ 2 ^ 63 → a + b ≤ 2 ^ 63 + 2048) := by
  have hA := ha.nonneg (by omega)
  have hB := hb.nonneg (by omega)
  have hnpos := hn.nonneg (Int.add_nonneg hA hB)
  have hmagnitude := hn.magnitude
  rw [Int.natAbs_add_of_nonneg hA hB] at hmagnitude
  have hbounds := ha.magnitude.add_bounds hb.magnitude hmagnitude (by omega) (by omega) (by omega)
  omega

/-- An integer of 64 bits that is the rounded sum of two rounded ones although these add up to none
is the least one, and it is missed by little. -/
theorem eq_of_add (ha : SignedRoundsTo a 1 A) (hb : SignedRoundsTo b 1 B)
    (hn : SignedRoundsTo (A + B) 1 n) (hale : a.natAbs ≤ 2 ^ 63) (hble : b.natAbs ≤ 2 ^ 63)
    (hlow : -2 ^ 63 ≤ n) (hhigh : n < 2 ^ 63) (hsum : a + b < -2 ^ 63 ∨ 2 ^ 63 ≤ a + b) :
    -2 ^ 63 - 2048 ≤ a + b ∧ a + b < -2 ^ 63 ∧ n = -2 ^ 63 := by
  rcases hsum with hbelow | habove
  · have hopposite : SignedRoundsTo (-A + -B) 1 (-n) := by
      rw [← Int.neg_add]
      exact hn.neg
    have hbounds := ha.neg.add_bounds hb.neg hopposite (by omega) (by omega) (by omega)
    omega
  · have hbounds := ha.add_bounds hb hn (by omega) (by omega) habove
    omega

/-- Two numbers of one sign are as far apart as their magnitudes. -/
theorem natAbs_sub_le_of_sign_eq {x y : Int} (hsign : x.sign = y.sign)
    (hhigh : 2 ^ 51 * x.natAbs ≤ (2 ^ 51 + 1) * y.natAbs)
    (hlow : (2 ^ 51 - 1) * y.natAbs ≤ 2 ^ 51 * x.natAbs) :
    2 ^ 51 * (x - y).natAbs ≤ y.natAbs := by
  rcases lt_trichotomy y 0 with hneg | rfl | hpos
  · have hx := Int.sign_eq_neg_one_iff_neg.mp (hsign.trans (Int.sign_eq_neg_one_of_neg hneg))
    omega
  · omega
  · have hx := Int.sign_eq_one_iff_pos.mp (hsign.trans (Int.sign_eq_one_of_pos hpos))
    omega

/-- The rounded product of two rounded numbers is off by three roundings. -/
theorem mul_error (ha : SignedRoundsTo a 1 A) (hb : SignedRoundsTo b 1 B)
    (hn : SignedRoundsTo (A * B) 1 n) (hane : a ≠ 0) (hbne : b ≠ 0) :
    2 ^ 51 * (n - a * b).natAbs ≤ (a * b).natAbs := by
  have hA : A ≠ 0 := mt ha.eq_zero_iff.mp hane
  have hB : B ≠ 0 := mt hb.eq_zero_iff.mp hbne
  have hnne : n ≠ 0 := mt hn.eq_zero_iff.mp (mul_ne_zero hA hB)
  have hmagnitude := hn.magnitude
  rw [Int.natAbs_mul] at hmagnitude
  obtain ⟨hhigh, hlow⟩ := ha.magnitude.mul_error hb.magnitude hmagnitude (by omega) (by omega)
  rw [← Int.natAbs_mul] at hhigh hlow
  refine natAbs_sub_le_of_sign_eq ?_ hhigh hlow
  rw [hn.sign_eq hnne, Int.sign_mul, Int.sign_mul, ha.sign_eq hA, hb.sign_eq hB]

/-- A rounded quotient has the sign that the divisor takes back to that of the dividend. -/
theorem sign_mul_eq {den : Nat} (hn : SignedRoundsTo (a * b.sign) den n) (hnne : n ≠ 0)
    (hbne : b ≠ 0) : (n * b).sign = a.sign := by
  have hunit : b.sign * b.sign = 1 := by
    rw [← Int.sign_mul, Int.sign_eq_one_of_pos (mul_self_pos.mpr hbne)]
  rw [Int.sign_mul, hn.sign_eq hnne, Int.sign_mul, Int.sign_sign, Int.mul_assoc, hunit,
    Int.mul_one]

/-- The rounded quotient of two rounded numbers is off by three roundings. -/
theorem div_error (ha : SignedRoundsTo a 1 A) (hb : SignedRoundsTo b 1 B)
    (hn : SignedRoundsTo (A * B.sign) B.natAbs n) (hane : a ≠ 0) (hbne : b ≠ 0)
    (hble : b.natAbs ≤ 2 ^ 63) : 2 ^ 51 * (n * b - a).natAbs ≤ a.natAbs := by
  have hA : A ≠ 0 := mt ha.eq_zero_iff.mp hane
  have hB : B ≠ 0 := mt hb.eq_zero_iff.mp hbne
  have hmagnitude := hn.magnitude
  rw [Int.natAbs_mul, Int.natAbs_sign_of_ne_zero hB, Nat.mul_one] at hmagnitude
  obtain ⟨hhigh, hlow⟩ :=
    ha.magnitude.div_error hb.magnitude hmagnitude (by omega) (by omega) hble
  have hnne : n ≠ 0 := by
    rintro rfl
    rw [Int.natAbs_zero, Nat.zero_mul] at hlow
    omega
  rw [← Int.natAbs_mul] at hhigh hlow
  refine natAbs_sub_le_of_sign_eq ?_ hhigh hlow
  rw [hb.sign_eq hB] at hn
  rw [hn.sign_mul_eq hnne hbne, ha.sign_eq hA]

/-- A quotient of numbers of 53 bits that is rounded to a whole number is exact. -/
theorem mul_eq_of_le (hn : SignedRoundsTo (a * b.sign) b.natAbs n) (hane : a ≠ 0) (hbne : b ≠ 0)
    (hale : a.natAbs ≤ 2 ^ 53) (hble : b.natAbs ≤ 2 ^ 53) : n * b = a := by
  have hmagnitude := hn.magnitude
  rw [Int.natAbs_mul, Int.natAbs_sign_of_ne_zero hbne, Nat.mul_one] at hmagnitude
  have hexact := hmagnitude.mul_eq_of_le hale (by omega) (by omega) hble
  have hnne : n ≠ 0 := by
    rintro rfl
    rw [Int.natAbs_zero, Nat.zero_mul] at hexact
    omega
  rw [← Int.natAbs_mul] at hexact
  rw [← Int.sign_mul_natAbs (n * b), hn.sign_mul_eq hnne hbne, hexact, Int.sign_mul_natAbs]

end SignedRoundsTo

end Binary64

end ScalarExpr
