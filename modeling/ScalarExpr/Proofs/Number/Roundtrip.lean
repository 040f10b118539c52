import ScalarExpr.Proofs.Number.Shortest
import ScalarExpr.Proofs.Number.Whole

/-!
# The shortest decimal is read back

A basin holds nothing but what rounds to its double. The finest of the twenty grids has steps that
are smaller than the upper half of the basin, so the search ends with a decimal in the basin, and this
decimal is read as the double, whatever the tie.

All fractions are counted in the units of a double or, in a basin, in fourths of them.
-/

namespace ScalarExpr.Binary64

section Interval

variable {num den mantissa step : Nat}

/-- What is less than half away from a number is rounded to it, and what is half away from an even
one. -/
theorem roundHalfEven_eq {q : Nat} (hden : 0 < den) (hlow : 2 * q * den ≤ 2 * num + den)
    (hhigh : 2 * num ≤ 2 * q * den + den)
    (hodd : q % 2 = 1 → 2 * q * den ≠ 2 * num + den ∧ 2 * num ≠ 2 * q * den + den) :
    roundHalfEven num den = q := by
  have hdiv := Nat.div_add_mod num den
  have hrest := Nat.mod_lt num hden
  generalize hquotient : num / den = quotient at hdiv
  rw [Nat.mul_comm] at hdiv
  -- the quotient is the number or the one before
  have hle : quotient ≤ q := by
    by_contra hlt
    have hstep : (q + 1) * den ≤ quotient * den := Nat.mul_le_mul_right _ (by omega)
    rw [Nat.add_mul] at hstep
    rw [Nat.mul_assoc] at hhigh
    omega
  have hge : q ≤ quotient + 1 := by
    by_contra hlt
    have hstep : (quotient + 2) * den ≤ q * den := Nat.mul_le_mul_right _ (by omega)
    rw [Nat.add_mul] at hstep
    rw [Nat.mul_assoc] at hlow
    omega
  unfold roundHalfEven
  rw [hquotient]
  dsimp only
  rw [Nat.mul_assoc] at hlow hhigh hodd
  rcases Nat.eq_or_lt_of_le hle with rfl | hlt
  · rw [if_pos (by omega)]
  · obtain rfl : q = quotient + 1 := by omega
    rw [Nat.add_mul] at hlow hhigh hodd
    rw [if_neg (by omega)]

/-- What a basin holds lies between its ends, and on an end only if the mantissa is even. -/
theorem Basin.bounds_of_holds (h : (Basin.of mantissa step).holds num den = true) :
    (Basin.of mantissa step).low * den ≤ num ∧ num ≤ (Basin.of mantissa step).high * den ∧
      (mantissa % 2 = 1 →
        (Basin.of mantissa step).low * den ≠ num ∧ num ≠ (Basin.of mantissa step).high * den) := by
  unfold holds at h
  split at h
  · next hclosed =>
    have heven : mantissa % 2 = 0 := beq_iff_eq.mp hclosed
    simp only [Bool.and_eq_true, decide_eq_true_eq] at h
    exact ⟨h.1, h.2, by omega⟩
  · simp only [Bool.and_eq_true, decide_eq_true_eq] at h
    omega

/-- What is at most half a step away from a mantissa at its step is nearest to it, and what is half a
step away from an even one. -/
theorem nearest_of_stepOf (hstep : StepOf num (4 * den) step) (hden : 0 < den)
    (hlow : 4 * mantissa * (den * 2 ^ step) ≤ num + 2 * (den * 2 ^ step))
    (hhigh : num ≤ 4 * mantissa * (den * 2 ^ step) + 2 * (den * 2 ^ step))
    (hodd : mantissa % 2 = 1 → 4 * mantissa * (den * 2 ^ step) ≠ num + 2 * (den * 2 ^ step) ∧
      num ≠ 4 * mantissa * (den * 2 ^ step) + 2 * (den * 2 ^ step)) :
    Nearest num (4 * den) (mantissa * 2 ^ step) := by
  have hscale : 0 < 4 * den * 2 ^ step := Nat.mul_pos (by omega) (Nat.pow_pos (by decide))
  have hquarter : 4 * den * 2 ^ step = 4 * (den * 2 ^ step) := Nat.mul_assoc ..
  have hproduct : 2 * mantissa * (4 * den * 2 ^ step) = 2 * (4 * mantissa * (den * 2 ^ step)) := by
    ring
  refine ⟨step, hstep, ?_⟩
  rw [roundHalfEven_eq hscale (q := mantissa)]
  all_goals
    rw [hproduct, hquarter]
    omega

/-- The upper end of a basin is below the next power of two. -/
theorem lt_of_le_high (hden : 0 < den) (hmantissa : mantissa < 2 ^ 53)
    (h : num ≤ (Basin.of mantissa step).high * den) : num < 4 * den * 2 ^ (step + 53) := by
  have hscale : 0 < den * 2 ^ step := Nat.mul_pos hden (Nat.pow_pos (by decide))
  calc
    num ≤ (4 * mantissa + 2) * 2 ^ step * den := h
    _ = (4 * mantissa + 2) * (den * 2 ^ step) := by ring
    _ < 2 ^ 55 * (den * 2 ^ step) := Nat.mul_lt_mul_of_pos_right (by omega) hscale
    _ = 4 * den * 2 ^ (step + 53) := by rw [Nat.pow_add]; ring

/-- Around the least mantissa the steps below are half of the steps above. -/
theorem nearest_of_least {finer : Nat} (hden : 0 < den)
    (hlow : (2 ^ 54 - 1) * (den * 2 ^ (finer + 1)) ≤ num)
    (hhigh : num ≤ (2 ^ 54 + 2) * (den * 2 ^ (finer + 1))) :
    Nearest num (4 * den) (2 ^ 52 * 2 ^ (finer + 1)) := by
  have hscale : 0 < den * 2 ^ finer := Nat.mul_pos hden (Nat.pow_pos (by decide))
  have hdouble : den * 2 ^ (finer + 1) = 2 * (den * 2 ^ finer) := by ring
  have hpower (more : Nat) : 4 * den * 2 ^ (finer + more) = 2 ^ (more + 2) * (den * 2 ^ finer) := by
    rw [Nat.pow_add, Nat.pow_add]
    ring
  rcases Nat.lt_or_ge num (2 ^ 55 * (den * 2 ^ finer)) with hbelow | habove
  · have hstep : StepOf num (4 * den) finer := by
      refine ⟨?_, .inr ?_⟩
      · rw [hpower]
        exact hbelow
      · rw [hpower]
        omega
    have hcarried : 2 ^ 53 * 2 ^ finer = 2 ^ 52 * 2 ^ (finer + 1) := by ring
    rw [← hcarried]
    exact nearest_of_stepOf hstep hden (by omega) (by omega) (by omega)
  · have hstep : StepOf num (4 * den) (finer + 1) := by
      refine ⟨?_, .inr ?_⟩
      · rw [Nat.add_assoc, hpower]
        omega
      · rw [Nat.add_assoc, hpower]
        exact habove
    exact nearest_of_stepOf hstep hden (by omega) (by omega) (by omega)

/-- What a basin holds rounds to its double. -/
theorem nearest_of_holds {negative : Bool}
    (hcanonical : (Decoded.finite negative mantissa step).Canonical) (hpos : 0 < mantissa)
    (hden : 0 < den) (h : (Basin.of mantissa step).holds num den = true) :
    Nearest num (4 * den) (mantissa * 2 ^ step) := by
  obtain ⟨hmantissa, -, hnormal⟩ := hcanonical
  obtain ⟨hlow, hhigh, hodd⟩ := Basin.bounds_of_holds h
  have hlt := lt_of_le_high hden hmantissa hhigh
  have hend : (Basin.of mantissa step).high * den = (4 * mantissa + 2) * (den * 2 ^ step) := by
    show (4 * mantissa + 2) * 2 ^ step * den = _
    ring
  rw [hend] at hhigh hodd
  by_cases hleast : mantissa = 2 ^ (52 : Nat) ∧ step ≠ 0
  · obtain ⟨rfl, hstep⟩ := hleast
    obtain ⟨finer, rfl⟩ := Nat.exists_eq_add_one_of_ne_zero hstep
    have hstart : (Basin.of (2 ^ (52 : Nat)) (finer + 1)).low * den =
        (2 ^ 54 - 1) * (den * 2 ^ (finer + 1)) := by
      show (4 * 2 ^ (52 : Nat) - if _ then 1 else 2) * 2 ^ (finer + 1) * den = _
      rw [if_pos ⟨rfl, hstep⟩]
      ring
    rw [hstart] at hlow
    exact nearest_of_least hden hlow hhigh
  · have hstart : 4 * mantissa * (den * 2 ^ step) =
        (Basin.of mantissa step).low * den + 2 * (den * 2 ^ step) := by
      have hfour : 4 * mantissa = 4 * mantissa - 2 + 2 := by omega
      have hlow : (Basin.of mantissa step).low = (4 * mantissa - 2) * 2 ^ step := by
        show (4 * mantissa - if _ then 1 else 2) * 2 ^ step = _
        rw [if_neg hleast]
      rw [hlow]
      generalize 4 * mantissa - 2 = start at hfour ⊢
      rw [hfour]
      ring
    have hle : step = 0 ∨ 4 * den * 2 ^ (step + 52) ≤ num := by
      rcases Nat.eq_zero_or_pos step with hzero | hstep
      · exact .inl hzero
      · have hmore : (2 ^ 54 + 2) * (den * 2 ^ step) ≤ 4 * mantissa * (den * 2 ^ step) :=
          Nat.mul_le_mul_right _ (by omega)
        have hpower : 4 * den * 2 ^ (step + 52) = 2 ^ 54 * (den * 2 ^ step) := by
          rw [Nat.pow_add]
          ring
        exact .inr (by omega)
    rw [Nat.add_mul] at hhigh hodd
    exact nearest_of_stepOf ⟨hlt, hle⟩ hden (by omega) hhigh (by omega)

end Interval

/-- The finest of the twenty grids has steps of at most a fraction of the least number of so many
bits. -/
theorem finest_mul_le {bits : Nat} (h : bits < 2200) :
    10 ^ (coarsestOf bits - 19).toNat * 2 ^ (1076 : Nat) * 2 ^ (54 : Nat) ≤
      2 ^ (bits - 1) * 10 ^ (-(coarsestOf bits - 19)).toNat := by
  have hall : (List.range 2200).all (fun bits =>
      10 ^ (coarsestRank bits - 342) * 2 ^ (1076 : Nat) * 2 ^ (54 : Nat) ≤
        2 ^ (bits - 1) * 10 ^ (342 - coarsestRank bits)) = true := by
    decide +kernel
  have hup : (coarsestOf bits - 19).toNat = coarsestRank bits - 342 := by
    rw [coarsestOf_eq]
    omega
  have hdown : (-(coarsestOf bits - 19)).toNat = 342 - coarsestRank bits := by
    rw [coarsestOf_eq]
    omega
  rw [hup, hdown]
  exact of_decide_eq_true (List.all_eq_true.mp hall bits (List.mem_range.mpr h))

namespace Basin

variable {mantissa step : Nat}

/-- A multiple that the basin holds is found. -/
theorem isSome_pick? {basin : Basin} (tie : Tie) {den grid below : Nat}
    (h : basin.holds ((below + 1) * grid) den = true) :
    (basin.pick? tie den grid below).isSome = true := by
  unfold pick?
  rw [h]
  cases basin.holds (below * grid) den with
  | false => rfl
  | true => cases compare (2 * basin.centre * den) ((2 * below + 1) * grid) <;> rfl

/-- A grid with smaller steps than the upper half of a basin has a multiple in the basin. -/
theorem holds_next {basin : Basin} {den grid : Nat} (hgrid : 0 < grid)
    (hlow : basin.low ≤ basin.centre) (h : basin.centre * den + grid < basin.high * den) :
    basin.holds ((basin.centre * den / grid + 1) * grid) den = true := by
  have hdiv := Nat.div_add_mod (basin.centre * den) grid
  have hrest := Nat.mod_lt (basin.centre * den) hgrid
  have hstart := Nat.mul_le_mul_right den hlow
  rw [Nat.mul_comm] at hdiv
  unfold holds
  rw [Nat.add_mul, Nat.one_mul]
  split
  · simp only [Bool.and_eq_true, decide_eq_true_eq]
    omega
  · simp only [Bool.and_eq_true, decide_eq_true_eq]
    omega

/-- The steps of the finest of the twenty grids are smaller than the upper half of the basin. -/
theorem finest_lt (hpos : 0 < mantissa) (hmantissa : mantissa < 2 ^ (53 : Nat)) (hstep : step < 2046)
    {finest : Int} (hfinest : (Basin.of mantissa step).coarsest - 19 = finest) :
    10 ^ finest.toNat * 2 ^ (1076 : Nat) < 2 * 2 ^ step * 10 ^ (-finest).toNat := by
  have hbits := log2_centre_of hpos hmantissa hstep
  have hsmall := @finest_mul_le ((Basin.of mantissa step).centre.log2 + 1) (by omega)
  have hcoarsest : coarsestOf ((Basin.of mantissa step).centre.log2 + 1) - 19 = finest := hfinest
  have hcentre : 4 * mantissa * 2 ^ step ≠ 0 :=
    Nat.ne_of_gt (Nat.mul_pos (by omega) (Nat.pow_pos (by decide)))
  rw [hcoarsest, Nat.add_sub_cancel] at hsmall
  have hden : 0 < 10 ^ (-finest).toNat := Nat.pow_pos (by decide)
  generalize 10 ^ (-finest).toNat = den at hsmall hden ⊢
  generalize 10 ^ finest.toNat * 2 ^ (1076 : Nat) = grid at hsmall ⊢
  refine Nat.lt_of_mul_lt_mul_right (a := 2 ^ (54 : Nat)) ?_
  calc
    grid * 2 ^ (54 : Nat) ≤ 2 ^ (Basin.of mantissa step).centre.log2 * den := hsmall
    _ ≤ 4 * mantissa * 2 ^ step * den := Nat.mul_le_mul_right _ (Nat.log2_self_le hcentre)
    _ < 2 ^ (55 : Nat) * 2 ^ step * den :=
      Nat.mul_lt_mul_of_pos_right
        (Nat.mul_lt_mul_of_pos_right (by omega) (Nat.pow_pos (by decide))) hden
    _ = 2 * 2 ^ step * den * 2 ^ (54 : Nat) := by ring

/-- The finest of the twenty grids has a multiple in the basin. -/
theorem isSome_onGrid?_finest (tie : Tie) (hpos : 0 < mantissa)
    (hmantissa : mantissa < 2 ^ (53 : Nat)) (hstep : step < 2046) :
    ((Basin.of mantissa step).onGrid? tie ((Basin.of mantissa step).coarsest - 19)).isSome =
      true := by
  generalize hfinest : (Basin.of mantissa step).coarsest - 19 = finest
  have hlt := finest_lt hpos hmantissa hstep hfinest
  have hgrid : 0 < 10 ^ finest.toNat * 2 ^ (1076 : Nat) := by positivity
  rw [onGrid?_eq]
  generalize 10 ^ (-finest).toNat = den at hlt ⊢
  generalize 10 ^ finest.toNat * 2 ^ (1076 : Nat) = grid at hlt hgrid ⊢
  refine isSome_pick? tie (holds_next hgrid ?_ ?_)
  · exact Nat.mul_le_mul_right _ (Nat.sub_le ..)
  · have hhigh : (Basin.of mantissa step).high * den =
        (Basin.of mantissa step).centre * den + 2 * 2 ^ step * den := by
      rw [← Nat.add_mul]
      show (4 * mantissa + 2) * 2 ^ step * den = (4 * mantissa * 2 ^ step + 2 * 2 ^ step) * den
      ring
    rw [hhigh]
    exact Nat.add_lt_add_left hlt _

/-- What is found on a grid lies in the basin. -/
theorem holds_of_onGrid? {basin : Basin} {tie : Tie} {exponent : Int} {significand : Nat}
    (h : basin.onGrid? tie exponent = some significand) :
    basin.holds (significand * (10 ^ exponent.toNat * 2 ^ (1076 : Nat)))
      (10 ^ (-exponent).toNat) = true := by
  rw [onGrid?_eq] at h
  exact (pick?_eq_some h).2

end Basin

/-- The basin of a double holds a decimal. -/
def Basin.HoldsDecimal (basin : Basin) (decimal : Decimal) : Prop :=
  basin.holds (decimal.significand * (10 ^ decimal.exponent.toNat * 2 ^ (1076 : Nat)))
    (10 ^ (-decimal.exponent).toNat) = true

/-- The shortest decimal of a positive double lies in its basin. -/
theorem holdsDecimal_shortest {mantissa step : Nat} (tie : Tie) (hpos : 0 < mantissa)
    (hmantissa : mantissa < 2 ^ (53 : Nat)) (hstep : step < 2046) :
    (Basin.of mantissa step).HoldsDecimal (shortest tie mantissa step) := by
  have hfinest := Basin.isSome_onGrid?_finest tie hpos hmantissa hstep
  unfold shortest
  dsimp only
  generalize Basin.of mantissa step = basin at hfinest ⊢
  cases hhit : List.findSome? _ _ with
  | none =>
    rw [List.findSome?_eq_none_iff] at hhit
    have hnone := hhit (basin.coarsest - 19)
      (List.mem_map.mpr ⟨19, List.mem_range.mpr (by decide), rfl⟩)
    rw [Option.map_eq_none_iff.mp hnone] at hfinest
    cases hfinest
  | some decimal =>
    obtain ⟨exponent, -, hfound⟩ := List.exists_of_findSome?_eq_some hhit
    obtain ⟨significand, hsignificand, rfl⟩ := Option.map_eq_some_iff.mp hfound
    exact Basin.holds_of_onGrid? hsignificand

section Bits

variable {x y : Float} {negative : Bool} {mantissa step : Nat}

/-- Doubles with the same bits are equal. -/
theorem eq_of_toBits_eq (h : x.toBits = y.toBits) : x = y := by
  obtain ⟨⟨bits, hvalid⟩⟩ := x
  obtain ⟨⟨bits', hvalid'⟩⟩ := y
  obtain rfl : bits = bits' := h
  rfl

/-- What a finite double stands for gives its bits. -/
theorem toNat_toBits_of_decode (h : decode x = .finite negative mantissa step) :
    x.toBits.toNat =
      (if negative then 2 ^ 63 else 0) + (step * 2 ^ 52 + mantissa) := by
  have hlt := x.toBits.toNat_lt
  rw [decode_eq_decodeBits] at h
  unfold decodeBits at h
  dsimp only at h
  split at h
  · split at h <;> cases h
  · split at h
    all_goals
      cases h
      by_cases hnegative : 2 ^ 63 ≤ x.toBits.toNat
      · rw [if_pos (decide_eq_true hnegative)]
        omega
      · rw [if_neg (by simpa using hnegative)]
        omega

/-- Doubles that stand for the same number with the same sign are equal. -/
theorem eq_of_decode (hx : decode x = .finite negative mantissa step)
    (hy : decode y = .finite negative mantissa step) : x = y :=
  eq_of_toBits_eq (UInt64.toNat_inj.mp
    ((toNat_toBits_of_decode hx).trans (toNat_toBits_of_decode hy).symm))

/-- There are two zeros. -/
theorem eq_zero_of_decode (h : decode x = .finite negative 0 step) :
    x = if negative then -0.0 else 0.0 := by
  have hcanonical : (decode x).Canonical := canonical_decodeBits _
  rw [h] at hcanonical
  obtain rfl : step = 0 := hcanonical.2.2.resolve_right (by decide)
  refine eq_of_decode h ?_
  cases negative with
  | true => decide
  | false => decide

/-- A finite double is made of its mantissa and its step. -/
theorem ofMagnitude_of_decode (h : decode x = .finite negative mantissa step) :
    ofMagnitude negative (step * 2 ^ 52 + mantissa) = x := by
  have hlt := x.toBits.toNat_lt
  have hbits := toNat_toBits_of_decode h
  have hsame : UInt64.ofNat (if negative then 2 ^ (63 : Nat) + (step * 2 ^ 52 + mantissa)
      else step * 2 ^ 52 + mantissa) = x.toBits := by
    rw [← UInt64.toNat_inj, UInt64.toNat_ofNat']
    cases negative <;> simp at hbits ⊢ <;> omega
  unfold ofMagnitude
  rw [hsame]
  exact eq_of_decode ((decode_ofBits _).trans h) h

/-- Units have only one mantissa and step that fit into bits. -/
theorem mantissa_unique {mantissa' step' : Nat} (h : mantissa * 2 ^ step = mantissa' * 2 ^ step')
    (hmantissa : mantissa < 2 ^ 53) (hnormal : step = 0 ∨ 2 ^ 52 ≤ mantissa)
    (hmantissa' : mantissa' < 2 ^ 53) (hnormal' : step' = 0 ∨ 2 ^ 52 ≤ mantissa') :
    mantissa = mantissa' ∧ step = step' := by
  have hsteps : step = step' := by
    refine (stepOf_units hmantissa hnormal).unique ?_
    rw [h]
    exact stepOf_units hmantissa' hnormal'
  subst hsteps
  exact ⟨Nat.eq_of_mul_eq_mul_right (Nat.pow_pos (by decide)) h, rfl⟩

/-- A rounded mantissa has the same bits as the one it carries to. -/
theorem bits_eq_of_units_eq {rounded scale : Nat} (h : mantissa * 2 ^ step = rounded * 2 ^ scale)
    (hmantissa : mantissa < 2 ^ 53) (hnormal : step = 0 ∨ 2 ^ 52 ≤ mantissa)
    (hrounded : rounded ≤ 2 ^ 53) (hnormal' : scale = 0 ∨ 2 ^ 52 ≤ rounded) :
    scale * 2 ^ 52 + rounded = step * 2 ^ 52 + mantissa := by
  rcases Nat.lt_or_eq_of_le hrounded with hlt | rfl
  · obtain ⟨rfl, rfl⟩ := mantissa_unique h hmantissa hnormal hlt hnormal'
    rfl
  · have hcarried : mantissa * 2 ^ step = 2 ^ 52 * 2 ^ (scale + 1) := by
      rw [h]
      ring
    obtain ⟨rfl, rfl⟩ := mantissa_unique hcarried hmantissa hnormal (by decide) (.inr (Nat.le_refl _))
    ring

end Bits

section Reading

variable {x : Float} {negative : Bool} {mantissa step num den : Nat}

/-- The double nearest a fraction that rounds to the units of a double is this double. -/
theorem nearest_eq (h : decode x = .finite negative mantissa step) (hden : 0 < den)
    (hnearest : Nearest (num * one) den (mantissa * 2 ^ step)) : nearest negative num den = x := by
  have hcanonical : (decode x).Canonical := canonical_decodeBits _
  rw [h] at hcanonical
  obtain ⟨hmantissa, hstep, hnormal⟩ := hcanonical
  rw [nearest]
  rcases Nat.eq_zero_or_pos num with rfl | hnum
  · have hnone : mantissa * 2 ^ step ≤ 0 * 2 ^ 0 :=
      hnearest.le_of_ge hden (by decide) (by simp)
    rw [Nat.zero_mul, Nat.le_zero] at hnone
    obtain rfl : mantissa = 0 :=
      (Nat.mul_eq_zero.mp hnone).resolve_right (Nat.ne_of_gt (Nat.two_pow_pos step))
    obtain rfl : step = 0 := hnormal.resolve_right (by decide)
    rw [if_pos rfl, ← ofMagnitude_of_decode h, Nat.zero_mul]
  · obtain ⟨scale, hscale, hunits⟩ := hnearest
    obtain ⟨scale', hscale', hbits⟩ := exists_stepOf_magnitudeBits hnum hden
    obtain rfl := hscale.unique hscale'
    obtain ⟨hrounded, hnormal'⟩ := hscale.rounded hden
    rw [bits_eq_of_units_eq hunits hmantissa hnormal hrounded hnormal'] at hbits
    have hfinite : step * 2 ^ 52 + mantissa ≤ infinityBits := by
      unfold infinityBits
      omega
    rw [if_neg (Nat.ne_of_gt hnum), hbits, Nat.min_eq_left hfinite]
    exact ofMagnitude_of_decode h

/-- A fourth of a unit is that much of one. -/
theorem two_pow_eq_four_mul_one : 2 ^ (1076 : Nat) = 4 * one := by
  -- The exponent is named, so that the power is not evaluated.
  obtain ⟨exponent, hexponent⟩ : ∃ exponent, exponent = 1074 := ⟨1074, rfl⟩
  have hsum : 1076 = exponent + 2 := by rw [hexponent]
  rw [one_eq, hsum, ← hexponent, Nat.pow_add]
  ring

/-- A decimal in the basin of a double rounds to its units. -/
theorem nearest_of_holdsDecimal {decimal : Decimal}
    (h : decode x = .finite negative mantissa step) (hpos : 0 < mantissa)
    (hdecimal : (Basin.of mantissa step).HoldsDecimal decimal) :
    Nearest (decimal.significand * 10 ^ decimal.exponent.toNat * one)
      (10 ^ (-decimal.exponent).toNat) (mantissa * 2 ^ step) := by
  have hcanonical : (decode x).Canonical := canonical_decodeBits _
  rw [h] at hcanonical
  have hnearest := nearest_of_holds hcanonical hpos (Nat.pow_pos (by decide)) hdecimal
  have hnum : decimal.significand * (10 ^ decimal.exponent.toNat * 2 ^ (1076 : Nat)) =
      4 * (decimal.significand * 10 ^ decimal.exponent.toNat * one) := by
    rw [two_pow_eq_four_mul_one]
    ring
  rw [hnum] at hnearest
  exact (Nearest.mul_mul_iff (by decide)).mp hnearest

/-- A decimal in a basin is not zero. -/
theorem significand_pos_of_holdsDecimal {decimal : Decimal} (hpos : 0 < mantissa)
    (hdecimal : (Basin.of mantissa step).HoldsDecimal decimal) : 0 < decimal.significand := by
  rcases Nat.eq_zero_or_pos decimal.significand with hzero | hsignificand
  · rw [Basin.HoldsDecimal, hzero, Nat.zero_mul,
      Basin.holds_zero (Basin.low_of_pos step hpos) (Nat.pow_pos (by decide))] at hdecimal
    cases hdecimal
  · exact hsignificand

-- The exponents of large powers are named below, so that the powers are not evaluated.

/-- Powers of two around the greatest and the least double are not above powers of ten. -/
theorem two_pow_le_ten_pow :
    2 ^ (1029 : Nat) ≤ 10 ^ (310 : Nat) ∧ 2 ^ (1076 : Nat) ≤ 10 ^ (324 : Nat) := by
  decide +kernel

/-- A decimal in a basin is not so large that it is taken for infinity unread. -/
theorem exponent_lt_of_holdsDecimal {decimal : Decimal} (hpos : 0 < mantissa)
    (hmantissa : mantissa < 2 ^ 53) (hstep : step ≤ 2045)
    (hdecimal : (Basin.of mantissa step).HoldsDecimal decimal) : decimal.exponent < 310 := by
  have hsignificand := significand_pos_of_holdsDecimal hpos hdecimal
  obtain ⟨-, hhigh, -⟩ := Basin.bounds_of_holds hdecimal
  by_contra hlarge
  have hden : (-decimal.exponent).toNat = 0 := by omega
  rw [hden, Nat.pow_zero, Nat.mul_one] at hhigh
  obtain ⟨bits, digits, hbits, hdigits, hten⟩ : ∃ bits digits, bits = 1029 ∧ digits = 310 ∧
      2 ^ bits ≤ 10 ^ digits :=
    ⟨1029, 310, rfl, rfl, two_pow_le_ten_pow.1⟩
  obtain ⟨unit, hunit⟩ : ∃ unit, unit = 1076 := ⟨1076, rfl⟩
  rw [← hunit] at hhigh
  have hlt : 2 ^ (bits + unit) < 2 ^ (55 + step) := by
    calc
      2 ^ (bits + unit) = 2 ^ bits * 2 ^ unit := Nat.pow_add ..
      _ ≤ 10 ^ decimal.exponent.toNat * 2 ^ unit :=
        Nat.mul_le_mul_right _ (hten.trans (Nat.pow_le_pow_right (by decide) (by omega)))
      _ ≤ decimal.significand * (10 ^ decimal.exponent.toNat * 2 ^ unit) :=
        Nat.le_mul_of_pos_left _ hsignificand
      _ ≤ (4 * mantissa + 2) * 2 ^ step := hhigh
      _ < 2 ^ 55 * 2 ^ step := Nat.mul_lt_mul_of_pos_right (by omega) (Nat.pow_pos (by decide))
      _ = 2 ^ (55 + step) := (Nat.pow_add ..).symm
  have := (Nat.pow_lt_pow_iff_right (by decide)).mp hlt
  omega

/-- A decimal in a basin is not so small that it is taken for zero unread. -/
theorem le_exponent_of_holdsDecimal {decimal : Decimal} (hpos : 0 < mantissa)
    (hdecimal : (Basin.of mantissa step).HoldsDecimal decimal) :
    -330 ≤ decimal.exponent + decimal.significand.log2 + 1 := by
  obtain ⟨hlow, -, -⟩ := Basin.bounds_of_holds hdecimal
  by_contra hsmall
  have hgrid : decimal.exponent.toNat = 0 := by omega
  obtain ⟨unit, digits, hunit, hdigits, hten⟩ : ∃ unit digits, unit = 1076 ∧ digits = 324 ∧
      2 ^ unit ≤ 10 ^ digits :=
    ⟨1076, 324, rfl, rfl, two_pow_le_ten_pow.2⟩
  rw [← hunit, hgrid, Nat.pow_zero, Nat.one_mul] at hlow
  have hlt : 10 ^ (-decimal.exponent).toNat < 10 ^ (-decimal.exponent).toNat := by
    calc
      10 ^ (-decimal.exponent).toNat
        ≤ (Basin.of mantissa step).low * 10 ^ (-decimal.exponent).toNat :=
          Nat.le_mul_of_pos_left _ (Basin.low_of_pos step hpos)
      _ ≤ decimal.significand * 2 ^ unit := hlow
      _ < 10 ^ (decimal.significand.log2 + 1) * 10 ^ digits := by
        refine Nat.mul_lt_mul_of_lt_of_le ?_ hten (Nat.pow_pos (by decide))
        exact Nat.lt_of_lt_of_le Nat.lt_log2_self (Nat.pow_le_pow_left (by decide) _)
      _ = 10 ^ (decimal.significand.log2 + 1 + digits) := (Nat.pow_add ..).symm
      _ ≤ 10 ^ (-decimal.exponent).toNat := Nat.pow_le_pow_right (by decide) (by omega)
  exact Nat.lt_irrefl _ hlt

/-- A decimal in the basin of a double is read as this double. -/
theorem ofDecimal_of_holdsDecimal {decimal : Decimal} (h : decode x = .finite negative mantissa step)
    (hpos : 0 < mantissa) (hdecimal : (Basin.of mantissa step).HoldsDecimal decimal) :
    ofDecimal negative decimal.significand decimal.exponent = x := by
  have hcanonical : (decode x).Canonical := canonical_decodeBits _
  rw [h] at hcanonical
  obtain ⟨hmantissa, hstep, -⟩ := hcanonical
  have hsignificand := significand_pos_of_holdsDecimal hpos hdecimal
  have hlarge := exponent_lt_of_holdsDecimal hpos hmantissa hstep hdecimal
  have hsmall := le_exponent_of_holdsDecimal hpos hdecimal
  have hnearest := nearest_of_holdsDecimal h hpos hdecimal
  rw [ofDecimal, if_neg (Nat.ne_of_gt hsignificand), if_neg (by omega), if_neg (by omega)]
  split
  · next hwhole =>
    have hden : (-decimal.exponent).toNat = 0 := by omega
    rw [hden] at hnearest
    exact nearest_eq h Nat.one_pos hnearest
  · next hfraction =>
    have hgrid : decimal.exponent.toNat = 0 := by omega
    rw [hgrid, Nat.pow_zero, Nat.mul_one] at hnearest
    exact nearest_eq h (Nat.pow_pos (by decide)) hnearest

end Reading

end ScalarExpr.Binary64
