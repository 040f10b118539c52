import ScalarExpr.Number.Shortest
import Mathlib.Data.List.Basic
import Mathlib.Tactic.Ring

/-!
# How large the shortest decimal is

The step of the coarsest grid is above the double, and each finer grid has steps of a tenth. So on
the last of the twenty grids the multiples next to the double have at most twenty digits, and 64 bits
are enough for them. None of them is zero, since zero does not round to the double.
-/

namespace ScalarExpr.Binary64

/-- A decimal with a significand of 64 bits, where zero has no exponent. -/
structure Decimal.Fits (decimal : Decimal) : Prop where
  significand_lt : decimal.significand < 2 ^ (64 : Nat)
  exponent_eq : decimal.significand = 0 → decimal.exponent = 0

/-- The exponent of the coarsest grid for a centre of so many bits. -/
def coarsestOf (bits : Nat) : Int := ((bits - 1076 : Int) * 30103) / 100000 + 1

/-- The exponent of the coarsest grid, counted from that of a centre without bits. -/
def coarsestRank (bits : Nat) : Nat := (bits * 30103 + 9172) / 100000

/-- The rank is a natural number, which is quick to compute with. -/
theorem coarsestOf_eq (bits : Nat) : coarsestOf bits = coarsestRank bits - 323 := by
  unfold coarsestOf coarsestRank
  omega

/-- The step of the coarsest grid is above all centres of so many bits. -/
theorem two_pow_mul_le {bits : Nat} (h : bits < 2200) :
    2 ^ bits * 10 ^ (-coarsestOf bits).toNat ≤
      10 ^ (coarsestOf bits).toNat * 2 ^ (1076 : Nat) := by
  have hall : (List.range 2200).all (fun bits => 2 ^ bits * 10 ^ (323 - coarsestRank bits) ≤
      10 ^ (coarsestRank bits - 323) * 2 ^ (1076 : Nat)) = true := by
    decide +kernel
  have hdown : (-coarsestOf bits).toNat = 323 - coarsestRank bits := by
    rw [coarsestOf_eq]
    omega
  have hup : (coarsestOf bits).toNat = coarsestRank bits - 323 := by
    rw [coarsestOf_eq]
    omega
  rw [hdown, hup]
  exact of_decide_eq_true (List.all_eq_true.mp hall bits (List.mem_range.mpr h))

/-- A grid that is finer by some powers of ten, as a fraction. -/
theorem pow_finer (coarse : Int) (finer : Nat) :
    10 ^ (-(coarse - finer)).toNat * 10 ^ coarse.toNat =
      10 ^ (-coarse).toNat * (10 ^ finer * 10 ^ (coarse - finer).toNat) := by
  rw [← Nat.pow_add, ← Nat.pow_add, ← Nat.pow_add]
  congr 1
  omega

/-- What is below a power of ten of a unit is below as many steps of a finer grid more. -/
theorem mul_pow_lt {centre unit : Nat} {coarse : Int} (finer : Nat)
    (h : centre * 10 ^ (-coarse).toNat < 10 ^ coarse.toNat * unit) :
    centre * 10 ^ (-(coarse - finer)).toNat <
      10 ^ finer * (10 ^ (coarse - finer).toNat * unit) := by
  refine Nat.lt_of_mul_lt_mul_right (a := 10 ^ coarse.toNat) ?_
  have hpos : 0 < 10 ^ finer * 10 ^ (coarse - finer).toNat :=
    Nat.mul_pos (Nat.pow_pos (by decide)) (Nat.pow_pos (by decide))
  calc
    centre * 10 ^ (-(coarse - finer)).toNat * 10 ^ coarse.toNat
      = centre * 10 ^ (-coarse).toNat * (10 ^ finer * 10 ^ (coarse - finer).toNat) := by
        rw [Nat.mul_assoc, pow_finer, Nat.mul_assoc]
    _ < 10 ^ coarse.toNat * unit * (10 ^ finer * 10 ^ (coarse - finer).toNat) :=
        Nat.mul_lt_mul_of_pos_right h hpos
    _ = 10 ^ finer * (10 ^ (coarse - finer).toNat * unit) * 10 ^ coarse.toNat := by ring

namespace Basin

variable {basin : Basin} {tie : Tie} {exponent : Int} {significand : Nat}

/-- The multiple of a grid that is taken, of the one below the centre and the next one. -/
def pick? (basin : Basin) (tie : Tie) (den grid below : Nat) : Option Nat :=
  match basin.holds (below * grid) den, basin.holds ((below + 1) * grid) den with
  | false, false => none
  | true, false => some below
  | false, true => some (below + 1)
  | true, true =>
    match compare (2 * basin.centre * den) ((2 * below + 1) * grid) with
    | .lt => some below
    | .gt => some (below + 1)
    | .eq => some (if tie = .even ∧ below % 2 = 0 then below else below + 1)

/-- What is taken is one of the two, and lies in the basin. -/
theorem pick?_eq_some {den grid below : Nat}
    (h : basin.pick? tie den grid below = some significand) :
    significand ≤ below + 1 ∧ basin.holds (significand * grid) den = true := by
  unfold pick? at h
  split at h
  · cases h
  · next hbelow _ =>
    cases h
    exact ⟨Nat.le_succ _, hbelow⟩
  · next hnext =>
    cases h
    exact ⟨Nat.le_refl _, hnext⟩
  · next hbelow hnext =>
    split at h
    · cases h
      exact ⟨Nat.le_succ _, hbelow⟩
    · cases h
      exact ⟨Nat.le_refl _, hnext⟩
    · cases h
      split
      · exact ⟨Nat.le_succ _, hbelow⟩
      · exact ⟨Nat.le_refl _, hnext⟩

/-- On a grid the multiples next to the centre are looked at. -/
theorem onGrid?_eq (basin : Basin) (tie : Tie) (exponent : Int) :
    basin.onGrid? tie exponent =
      basin.pick? tie (10 ^ (-exponent).toNat) (10 ^ exponent.toNat * 2 ^ (1076 : Nat))
        (basin.centre * 10 ^ (-exponent).toNat / (10 ^ exponent.toNat * 2 ^ (1076 : Nat))) := by
  refine (onGrid?.eq_1 basin tie exponent).trans (Eq.trans ?_ (pick?.eq_1 basin tie _ _ _).symm)
  -- The choices are made on variables, so that no power of ten is ever computed.
  generalize basin.holds _ _ = holdsBelow
  generalize basin.holds _ _ = holdsNext
  generalize compare (_ : Nat) _ = order
  cases holdsBelow <;> cases holdsNext <;> cases order <;> rfl

/-- Zero is in no basin with a low end above zero. -/
theorem holds_zero {den : Nat} (hlow : 0 < basin.low) (hden : 0 < den) :
    basin.holds 0 den = false := by
  have hpos : 0 < basin.low * den := Nat.mul_pos hlow hden
  unfold holds
  split
  · simp [Nat.not_le.mpr hpos]
  · simp

/-- The centre is below the step of the coarsest grid. -/
theorem centre_lt (h : basin.centre.log2 < 2199) :
    basin.centre * 10 ^ (-basin.coarsest).toNat <
      10 ^ basin.coarsest.toNat * 2 ^ (1076 : Nat) := by
  have hcoarsest : basin.coarsest = coarsestOf (basin.centre.log2 + 1) := rfl
  rw [hcoarsest]
  calc
    basin.centre * _ < 2 ^ (basin.centre.log2 + 1) * _ :=
      Nat.mul_lt_mul_of_pos_right Nat.lt_log2_self (Nat.pow_pos (by decide))
    _ ≤ _ := two_pow_mul_le (by omega)

/-- What is found on a grid that is finer by some powers of ten is at most as many powers of ten. -/
theorem onGrid?_finer {finer : Nat} (hcentre : basin.centre.log2 < 2199) (hlow : 0 < basin.low)
    (h : basin.onGrid? tie (basin.coarsest - finer) = some significand) :
    0 < significand ∧ significand ≤ 10 ^ finer := by
  have hlt := mul_pow_lt finer (centre_lt hcentre)
  rw [onGrid?_eq] at h
  have hden : 0 < 10 ^ (-(basin.coarsest - finer)).toNat := Nat.pow_pos (by decide)
  generalize 10 ^ (-(basin.coarsest - finer)).toNat = den at h hlt hden
  generalize 10 ^ (basin.coarsest - finer).toNat * 2 ^ (1076 : Nat) = grid at h hlt
  obtain ⟨hle, hholds⟩ := pick?_eq_some h
  constructor
  · rcases Nat.eq_zero_or_pos significand with rfl | hpos
    · rw [Nat.zero_mul, holds_zero hlow hden] at hholds
      cases hholds
    · exact hpos
  · have hdiv := Nat.div_lt_of_lt_mul (Nat.mul_comm grid _ ▸ hlt)
    omega

/-- The basin of a positive double ends above zero. -/
theorem low_of_pos {mantissa : Nat} (step : Nat) (hpos : 0 < mantissa) :
    0 < (Basin.of mantissa step).low := by
  refine Nat.mul_pos ?_ (Nat.pow_pos (by decide))
  split <;> omega

/-- The centre of the basin of a positive double has few enough bits. -/
theorem log2_centre_of {mantissa step : Nat} (hpos : 0 < mantissa)
    (hmantissa : mantissa < 2 ^ (53 : Nat)) (hstep : step < 2046) :
    (Basin.of mantissa step).centre.log2 < 2199 := by
  have hcentre : 4 * mantissa * 2 ^ step ≠ 0 :=
    Nat.ne_of_gt (Nat.mul_pos (by omega) (Nat.pow_pos (by decide)))
  refine (Nat.log2_lt hcentre).mpr ?_
  calc
    4 * mantissa * 2 ^ step < 2 ^ (55 : Nat) * 2 ^ step :=
      Nat.mul_lt_mul_of_pos_right (by omega) (Nat.pow_pos (by decide))
    _ = 2 ^ (55 + step) := (Nat.pow_add 2 55 step).symm
    _ ≤ 2 ^ 2199 := Nat.pow_le_pow_right (by decide) (by omega)

end Basin

/-- The shortest decimal of a positive double has a significand of 64 bits. -/
theorem fits_shortest {mantissa step : Nat} (tie : Tie) (hpos : 0 < mantissa)
    (hmantissa : mantissa < 2 ^ (53 : Nat)) (hstep : step < 2046) :
    (shortest tie mantissa step).Fits := by
  have hcentre := Basin.log2_centre_of hpos hmantissa hstep
  have hlow := Basin.low_of_pos step hpos
  unfold shortest
  dsimp only
  generalize Basin.of mantissa step = basin at hcentre hlow
  cases hhit : List.findSome? _ _ with
  | none => exact ⟨by decide, fun _ => rfl⟩
  | some decimal =>
    obtain ⟨exponent, hexponent, hfound⟩ := List.exists_of_findSome?_eq_some hhit
    obtain ⟨index, hindex, rfl⟩ := List.mem_map.mp hexponent
    obtain ⟨significand, hsignificand, rfl⟩ := Option.map_eq_some_iff.mp hfound
    obtain ⟨hpos, hle⟩ := Basin.onGrid?_finer hcentre hlow hsignificand
    have hindex : index < 20 := List.mem_range.mp hindex
    refine ⟨?_, fun hzero => absurd hzero (Nat.ne_of_gt hpos)⟩
    calc
      significand ≤ 10 ^ index := hle
      _ ≤ 10 ^ (19 : Nat) := Nat.pow_le_pow_right (by decide) (by omega)
      _ < 2 ^ (64 : Nat) := by decide

end ScalarExpr.Binary64
