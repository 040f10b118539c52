import ScalarExpr.Number.Binary64
import Mathlib.Tactic.Ring
import Mathlib.Tactic.Linarith

/-!
# The magnitude nearest a fraction

What rounding to 53 bits does to a fraction, counted in the smallest units that a double has. A
fraction is rounded at the step that leaves it a mantissa of 53 bits, or at the first step if it has
fewer bits there.

Rounding does not cross what a double can hold: a fraction on one side of a number with at most 53
bits does not come out on the other side. And what it moves a fraction by is small against the
fraction.
-/

namespace ScalarExpr

section HalfEven

variable {num den q : Nat}

/-- What fits into a fraction fits into the rounded one. -/
theorem le_roundHalfEven (hden : 0 < den) (h : q * den ≤ num) : q ≤ roundHalfEven num den := by
  have hquotient : q ≤ num / den := (Nat.le_div_iff_mul_le hden).mpr h
  unfold roundHalfEven
  dsimp only
  split <;> omega

/-- What bounds a fraction bounds the rounded one. -/
theorem roundHalfEven_le (hden : 0 < den) (h : num ≤ q * den) : roundHalfEven num den ≤ q := by
  rcases Nat.eq_or_lt_of_le h with rfl | hlt
  · rw [roundHalfEven_mul q den hden]
  · have hquotient : num / den < q := (Nat.div_lt_iff_lt_mul hden).mpr hlt
    unfold roundHalfEven
    dsimp only
    split <;> omega

/-- A half goes up from an odd number. -/
theorem succ_le_roundHalfEven (hden : 0 < den) (hodd : q % 2 = 1)
    (h : (2 * q + 1) * den ≤ 2 * num) : q + 1 ≤ roundHalfEven num den := by
  have hfit : q * den ≤ num := by
    have hexpand : (2 * q + 1) * den = 2 * (q * den) + den := by ring
    omega
  rcases Nat.eq_or_lt_of_le ((Nat.le_div_iff_mul_le hden).mpr hfit) with hq | hlt
  · have hdiv := Nat.div_add_mod num den
    have hexpand : (2 * q + 1) * den = 2 * (den * (num / den)) + den := by rw [← hq]; ring
    unfold roundHalfEven
    dsimp only
    rw [if_neg (by omega)]
    omega
  · unfold roundHalfEven
    dsimp only
    split <;> omega

/-- Rounding sees the fraction only. -/
theorem roundHalfEven_mul_mul {c : Nat} (hc : 0 < c) (num den : Nat) :
    roundHalfEven (c * num) (c * den) = roundHalfEven num den := by
  have hrest : 2 * (c * (num % den)) = c * (2 * (num % den)) := by ring
  unfold roundHalfEven
  dsimp only
  rw [Nat.mul_div_mul_left num den hc, Nat.mul_mod_mul_left, hrest]
  simp only [Nat.mul_lt_mul_left hc, Nat.mul_right_inj (Nat.ne_of_gt hc)]

/-- A larger fraction is not rounded to less. -/
theorem roundHalfEven_mono {num' : Nat} (hden : 0 < den) (h : num ≤ num') :
    roundHalfEven num den ≤ roundHalfEven num' den := by
  by_contra hlt
  obtain ⟨-, hlow⟩ := roundHalfEven_near num den hden
  obtain ⟨hhigh, -⟩ := roundHalfEven_near num' den hden
  have hmore : 2 * (roundHalfEven num' den + 1) * den ≤ 2 * roundHalfEven num den * den :=
    Nat.mul_le_mul_right _ (by omega)
  have hexpand : 2 * (roundHalfEven num' den + 1) * den =
      (2 * roundHalfEven num' den + 1) * den + den := by ring
  -- both are at the same half then, which is rounded one way
  obtain rfl : num = num' := by omega
  exact hlt (Nat.le_refl _)

end HalfEven

namespace Binary64

/-- The step at which a fraction of units has a mantissa of 53 bits; at the first step it may have
fewer. -/
structure StepOf (num den step : Nat) : Prop where
  /-- The mantissa has no more bits. -/
  lt : num < den * 2 ^ (step + 53)
  /-- It has no fewer, except at the first step. -/
  le : step = 0 ∨ den * 2 ^ (step + 52) ≤ num

/-- A number of units is the nearest to a fraction of units that a double can have. -/
def Nearest (num den magnitude : Nat) : Prop :=
  ∃ step, StepOf num den step ∧ magnitude = roundHalfEven num (den * 2 ^ step) * 2 ^ step

/-- A fraction has one step only. -/
theorem StepOf.unique {num den step step' : Nat} (h : StepOf num den step)
    (h' : StepOf num den step') : step = step' := by
  have hle {a b : Nat} (ha : StepOf num den a) (hb : StepOf num den b) : a ≤ b := by
    by_contra hlt
    have hnormal := ha.le.resolve_left (by omega)
    have hpow : den * 2 ^ (b + 53) ≤ den * 2 ^ (a + 52) :=
      Nat.mul_le_mul_left den (Nat.pow_le_pow_right (by decide) (by omega))
    have := hb.lt
    omega
  exact Nat.le_antisymm (hle h h') (hle h' h)

/-- A mantissa that fits into bits is at the step of its units. -/
theorem stepOf_units {mantissa step : Nat} (hmantissa : mantissa < 2 ^ 53)
    (hnormal : step = 0 ∨ 2 ^ 52 ≤ mantissa) : StepOf (mantissa * 2 ^ step) 1 step where
  lt := by
    calc mantissa * 2 ^ step < 2 ^ 53 * 2 ^ step :=
          (Nat.mul_lt_mul_right (by positivity)).mpr hmantissa
      _ = 1 * 2 ^ (step + 53) := by rw [pow_add]; ring
  le := by
    refine hnormal.imp_right fun hle => ?_
    calc 1 * 2 ^ (step + 52) = 2 ^ 52 * 2 ^ step := by rw [pow_add]; ring
      _ ≤ mantissa * 2 ^ step := Nat.mul_le_mul_right _ hle

/-- A fraction is rounded to a mantissa of 53 bits at its step, or carries. -/
theorem StepOf.rounded {num den step : Nat} (h : StepOf num den step) (hden : 0 < den) :
    roundHalfEven num (den * 2 ^ step) ≤ 2 ^ 53 ∧
      (step = 0 ∨ 2 ^ 52 ≤ roundHalfEven num (den * 2 ^ step)) := by
  have hscale : 0 < den * 2 ^ step := by positivity
  constructor
  · refine roundHalfEven_le hscale (Nat.le_of_lt ?_)
    calc num < den * 2 ^ (step + 53) := h.lt
      _ = 2 ^ 53 * (den * 2 ^ step) := by rw [pow_add]; ring
  · refine h.le.imp_right fun hle => le_roundHalfEven hscale ?_
    calc 2 ^ 52 * (den * 2 ^ step) = den * 2 ^ (step + 52) := by rw [pow_add]; ring
      _ ≤ num := hle

/-- A fraction that is not too large is rounded to a mantissa and a step that fit into bits. -/
theorem StepOf.mantissa {num den step : Nat} (h : StepOf num den step) (hden : 0 < den)
    (hfits : num < den * 2 ^ 2097) :
    roundHalfEven num (den * 2 ^ step) ≤ 2 ^ 53 ∧
      (step = 0 ∨ 2 ^ 52 ≤ roundHalfEven num (den * 2 ^ step)) ∧ step ≤ 2044 := by
  obtain ⟨hhigh, hlow⟩ := h.rounded hden
  refine ⟨hhigh, hlow, ?_⟩
  rcases h.le with hzero | hle
  · omega
  · have hpow := Nat.lt_of_mul_lt_mul_left (Nat.lt_of_le_of_lt hle hfits)
    have := (Nat.pow_lt_pow_iff_right (by decide)).mp hpow
    omega

namespace Nearest

variable {num den magnitude : Nat}

/-- Only one number is the nearest. -/
theorem unique {magnitude' : Nat} (h : Nearest num den magnitude)
    (h' : Nearest num den magnitude') : magnitude = magnitude' := by
  obtain ⟨step, hstep, rfl⟩ := h
  obtain ⟨step', hstep', rfl⟩ := h'
  rw [hstep.unique hstep']

/-- A common factor does not matter. -/
theorem mul_mul_iff {c : Nat} (hc : 0 < c) :
    Nearest (c * num) (c * den) magnitude ↔ Nearest num den magnitude := by
  have hround (step : Nat) : roundHalfEven (c * num) (c * den * 2 ^ step) =
      roundHalfEven num (den * 2 ^ step) := by
    rw [Nat.mul_assoc, roundHalfEven_mul_mul hc]
  have hstep (step : Nat) : StepOf (c * num) (c * den) step ↔ StepOf num den step := by
    constructor
    · intro h
      have hlt := h.lt
      have hle := h.le
      rw [Nat.mul_assoc, Nat.mul_lt_mul_left hc] at hlt
      rw [Nat.mul_assoc, Nat.mul_le_mul_left_iff hc] at hle
      exact ⟨hlt, hle⟩
    · intro h
      refine ⟨?_, ?_⟩
      · rw [Nat.mul_assoc, Nat.mul_lt_mul_left hc]
        exact h.lt
      · rw [Nat.mul_assoc, Nat.mul_le_mul_left_iff hc]
        exact h.le
  simp only [Nearest, hround, hstep]

/-- A fraction that is not below a number of 53 bits is not rounded below it. -/
theorem le_of_le {q j : Nat} (h : Nearest num den magnitude) (hden : 0 < den)
    (hq : q ≤ 2 ^ 53) (hle : q * 2 ^ j * den ≤ num) : q * 2 ^ j ≤ magnitude := by
  obtain ⟨step, hstep, rfl⟩ := h
  have hscale : 0 < den * 2 ^ step := by positivity
  rcases Nat.lt_or_ge j step with hj | hj
  · -- the number of 53 bits is below the least mantissa at this step
    have hnormal := hstep.le.resolve_left (by omega)
    have hfit : 2 ^ 52 * (den * 2 ^ step) ≤ num := by
      calc 2 ^ 52 * (den * 2 ^ step) = den * 2 ^ (step + 52) := by rw [pow_add]; ring
        _ ≤ num := hnormal
    calc q * 2 ^ j ≤ 2 ^ 53 * 2 ^ j := Nat.mul_le_mul_right _ hq
      _ = 2 ^ 52 * 2 ^ (j + 1) := by ring
      _ ≤ 2 ^ 52 * 2 ^ step := Nat.mul_le_mul_left _ (Nat.pow_le_pow_right (by decide) hj)
      _ ≤ roundHalfEven num (den * 2 ^ step) * 2 ^ step :=
        Nat.mul_le_mul_right _ (le_roundHalfEven hscale hfit)
  · obtain ⟨k, rfl⟩ := Nat.exists_eq_add_of_le hj
    have hfit : q * 2 ^ k * (den * 2 ^ step) ≤ num := by
      calc q * 2 ^ k * (den * 2 ^ step) = q * 2 ^ (step + k) * den := by rw [pow_add]; ring
        _ ≤ num := hle
    calc q * 2 ^ (step + k) = q * 2 ^ k * 2 ^ step := by rw [pow_add]; ring
      _ ≤ roundHalfEven num (den * 2 ^ step) * 2 ^ step :=
        Nat.mul_le_mul_right _ (le_roundHalfEven hscale hfit)

/-- A fraction that is not above a number of 53 bits is not rounded above it. -/
theorem le_of_ge {q j : Nat} (h : Nearest num den magnitude) (hden : 0 < den)
    (hq : q ≤ 2 ^ 53) (hge : num ≤ q * 2 ^ j * den) : magnitude ≤ q * 2 ^ j := by
  obtain ⟨step, hstep, rfl⟩ := h
  have hscale : 0 < den * 2 ^ step := by positivity
  rcases Nat.lt_or_ge j step with hj | hj
  · -- only the least mantissa at this step is not above the number of 53 bits
    have hnormal := hstep.le.resolve_left (by omega)
    have hleast : q * 2 ^ j * den ≤ den * 2 ^ (step + 52) := by
      calc q * 2 ^ j * den ≤ 2 ^ 53 * 2 ^ j * den :=
          Nat.mul_le_mul_right _ (Nat.mul_le_mul_right _ hq)
        _ = den * 2 ^ (j + 1 + 52) := by rw [pow_add]; ring
        _ ≤ den * 2 ^ (step + 52) :=
          Nat.mul_le_mul_left _ (Nat.pow_le_pow_right (by decide) (by omega))
    have hnum : num = 2 ^ 52 * (den * 2 ^ step) := by
      calc num = den * 2 ^ (step + 52) := Nat.le_antisymm (hge.trans hleast) hnormal
        _ = 2 ^ 52 * (den * 2 ^ step) := by rw [pow_add]; ring
    rw [hnum, roundHalfEven_mul _ _ hscale]
    refine Nat.le_of_mul_le_mul_right ?_ hden
    calc 2 ^ 52 * 2 ^ step * den = num := by rw [hnum]; ring
      _ ≤ q * 2 ^ j * den := hge
  · obtain ⟨k, rfl⟩ := Nat.exists_eq_add_of_le hj
    have hfit : num ≤ q * 2 ^ k * (den * 2 ^ step) := by
      calc num ≤ q * 2 ^ (step + k) * den := hge
        _ = q * 2 ^ k * (den * 2 ^ step) := by rw [pow_add]; ring
    calc roundHalfEven num (den * 2 ^ step) * 2 ^ step ≤ q * 2 ^ k * 2 ^ step :=
        Nat.mul_le_mul_right _ (roundHalfEven_le hscale hfit)
      _ = q * 2 ^ (step + k) := by rw [pow_add]; ring

/-- A larger fraction is not rounded to less. -/
theorem mono {num' den' magnitude' : Nat} (h : Nearest num den magnitude)
    (h' : Nearest num' den' magnitude') (hden : 0 < den) (hden' : 0 < den')
    (hle : num * den' ≤ num' * den) : magnitude ≤ magnitude' := by
  rw [← mul_mul_iff hden', Nat.mul_comm den'] at h
  rw [← mul_mul_iff hden, Nat.mul_comm den, Nat.mul_comm den] at h'
  have hcommon : 0 < den' * den := Nat.mul_pos hden' hden
  obtain ⟨step, hstep, rfl⟩ := h
  obtain ⟨step', hstep', rfl⟩ := h'
  rcases Nat.lt_trichotomy step step' with hlt | rfl | hgt
  · obtain ⟨hhigh, -⟩ := hstep.rounded hcommon
    have hlow := (hstep'.rounded hcommon).2.resolve_left (by omega)
    calc
      roundHalfEven (num * den') (den' * den * 2 ^ step) * 2 ^ step ≤ 2 ^ 53 * 2 ^ step :=
        Nat.mul_le_mul_right _ hhigh
      _ = 2 ^ 52 * 2 ^ (step + 1) := by ring
      _ ≤ 2 ^ 52 * 2 ^ step' := Nat.mul_le_mul_left _ (Nat.pow_le_pow_right (by decide) hlt)
      _ ≤ roundHalfEven (num' * den) (den' * den * 2 ^ step') * 2 ^ step' :=
        Nat.mul_le_mul_right _ hlow
  · exact Nat.mul_le_mul_right _ (roundHalfEven_mono (by positivity) hle)
  · -- a fraction with the greater step is the larger one
    have hlow := hstep.le.resolve_left (by omega)
    have hpower : den' * den * 2 ^ (step' + 53) ≤ den' * den * 2 ^ (step + 52) :=
      Nat.mul_le_mul_left _ (Nat.pow_le_pow_right (by decide) (by omega))
    have := hstep'.lt
    omega

/-- A number of 53 bits is kept. -/
theorem eq_of_eq {q j : Nat} (h : Nearest num den magnitude) (hden : 0 < den) (hq : q ≤ 2 ^ 53)
    (hnum : num = q * 2 ^ j * den) : magnitude = q * 2 ^ j :=
  Nat.le_antisymm (h.le_of_ge hden hq (Nat.le_of_eq hnum))
    (h.le_of_le hden hq (Nat.le_of_eq hnum.symm))

/-- A fraction within half a unit of its last place below a power of two is rounded up to it: the
mantissa below is odd. -/
theorem two_pow_le {j : Nat} (h : Nearest num den magnitude) (hden : 0 < den)
    (hle : (2 ^ 54 - 1) * 2 ^ j * den ≤ num) : 2 ^ (j + 54) ≤ magnitude := by
  rcases Nat.lt_or_ge num (den * 2 ^ (j + 54)) with hlt | hge
  · obtain ⟨step, hstep, rfl⟩ := h
    have hfirst : StepOf num den (j + 1) := by
      refine ⟨hlt, .inr ?_⟩
      calc den * 2 ^ (j + 1 + 52) = 2 ^ 53 * 2 ^ j * den := by rw [pow_add]; ring
        _ ≤ (2 ^ 54 - 1) * 2 ^ j * den :=
          Nat.mul_le_mul_right _ (Nat.mul_le_mul_right _ (by decide))
        _ ≤ num := hle
    obtain rfl := hstep.unique hfirst
    have hhalf : (2 * (2 ^ 53 - 1) + 1) * (den * 2 ^ (j + 1)) ≤ 2 * num := by
      calc (2 * (2 ^ 53 - 1) + 1) * (den * 2 ^ (j + 1)) = 2 * ((2 ^ 54 - 1) * 2 ^ j * den) := by
            rw [pow_succ]; ring
        _ ≤ 2 * num := Nat.mul_le_mul_left _ hle
    calc 2 ^ (j + 54) = 2 ^ 53 * 2 ^ (j + 1) := by ring
      _ ≤ roundHalfEven num (den * 2 ^ (j + 1)) * 2 ^ (j + 1) :=
        Nat.mul_le_mul_right _ (succ_le_roundHalfEven (by positivity) (by decide) hhalf)
  · have hpow := h.le_of_le (q := 1) (j := j + 54) hden (by decide)
      (by rwa [Nat.one_mul, Nat.mul_comm])
    rwa [Nat.one_mul] at hpow

/-- A fraction with a mantissa of 53 bits at a step is rounded to a multiple of this step, and moved
by half of it at most. -/
theorem exists_mantissa {j : Nat} (h : Nearest num den magnitude) (hden : 0 < den)
    (hlow : den * 2 ^ (j + 52) ≤ num) (hhigh : num ≤ den * 2 ^ (j + 53)) :
    ∃ mantissa, magnitude = mantissa * 2 ^ j ∧
      2 * num ≤ 2 * (magnitude * den) + den * 2 ^ j ∧
      2 * (magnitude * den) ≤ 2 * num + den * 2 ^ j := by
  rcases Nat.eq_or_lt_of_le hhigh with heq | hlt
  · have hkept : num = 2 ^ 53 * 2 ^ j * den := by rw [heq, pow_add]; ring
    have hmagnitude := h.eq_of_eq hden (Nat.le_refl _) hkept
    refine ⟨2 ^ 53, hmagnitude, ?_⟩
    rw [hkept, hmagnitude]
    omega
  · obtain ⟨step, hstep, rfl⟩ := h
    obtain rfl := hstep.unique ⟨hlt, .inr hlow⟩
    obtain ⟨hbelow, habove⟩ := roundHalfEven_near num (den * 2 ^ step) (by positivity)
    have hproduct : roundHalfEven num (den * 2 ^ step) * 2 ^ step * den =
        roundHalfEven num (den * 2 ^ step) * (den * 2 ^ step) := by ring
    refine ⟨_, rfl, ?_⟩
    rw [Nat.add_mul, Nat.mul_assoc, Nat.one_mul] at hbelow
    rw [Nat.mul_assoc] at habove
    rw [hproduct]
    exact ⟨hbelow, habove⟩

/-- A fraction with a mantissa of 53 bits is moved by less than the fraction over `2 ^ 53`. -/
theorem error_lt (h : Nearest num den magnitude) (hden : 0 < den) (hnormal : den * 2 ^ 52 ≤ num) :
    2 ^ 53 * (magnitude * den) < 2 ^ 53 * num + num ∧
      2 ^ 53 * num < 2 ^ 53 * (magnitude * den) + num := by
  obtain ⟨step, hstep, rfl⟩ := h
  have hscale : 0 < den * 2 ^ step := by positivity
  have hfit : 2 ^ 52 * (den * 2 ^ step) ≤ num := by
    rcases hstep.le with rfl | hle
    · simpa [Nat.mul_comm] using hnormal
    · calc 2 ^ 52 * (den * 2 ^ step) = den * 2 ^ (step + 52) := by rw [pow_add]; ring
        _ ≤ num := hle
  obtain ⟨hlow, hhigh⟩ := roundHalfEven_near num (den * 2 ^ step) hscale
  have hproduct : roundHalfEven num (den * 2 ^ step) * 2 ^ step * den =
      roundHalfEven num (den * 2 ^ step) * (den * 2 ^ step) := by ring
  rw [hproduct]
  rcases Nat.eq_or_lt_of_le hfit with hleast | hlt
  · -- the least mantissa is kept
    rw [← hleast, roundHalfEven_mul _ _ hscale]
    omega
  · rw [Nat.add_mul, Nat.mul_assoc] at hlow
    rw [Nat.mul_assoc] at hhigh
    omega

end Nearest

end Binary64

end ScalarExpr
