import ScalarExpr.Proofs.Number.Equality
import Mathlib.Order.Compare

/-!
# The order of doubles

The machine compares exponents first and mantissas only between equal exponents. All mantissas but those
at the first step have 53 bits, so this is the order of the units that the doubles have, and finite
doubles are ordered as the numbers that they stand for.
-/

namespace ScalarExpr.Binary64

open Float.Model (Format UnpackedFloat)

section Units

variable {m n s t : Nat}

/-- A mantissa at a smaller step has fewer units. -/
theorem units_lt_of_step_lt (hm : m < 2 ^ 53) (hn : t = 0 ∨ 2 ^ 52 ≤ n) (h : s < t) :
    m * 2 ^ s < n * 2 ^ t := by
  have hnormal := hn.resolve_left (by omega)
  calc
    m * 2 ^ s < 2 ^ 53 * 2 ^ s := Nat.mul_lt_mul_of_pos_right hm (Nat.two_pow_pos s)
    _ = 2 ^ 52 * 2 ^ (s + 1) := by ring
    _ ≤ 2 ^ 52 * 2 ^ t := Nat.mul_le_mul_left _ (Nat.pow_le_pow_right (by decide) h)
    _ ≤ n * 2 ^ t := Nat.mul_le_mul_right _ hnormal

/-- Units are compared by their steps, and at one step by their mantissas. -/
theorem compare_units (hm : m < 2 ^ 53) (hs : s = 0 ∨ 2 ^ 52 ≤ m) (hn : n < 2 ^ 53)
    (ht : t = 0 ∨ 2 ^ 52 ≤ n) :
    (compare ((s : Int) - 1074) (t - 1074)).then (compare m n) = compare (m * 2 ^ s) (n * 2 ^ t) := by
  rcases Nat.lt_trichotomy s t with hlt | rfl | hgt
  · have hstep : (s : Int) - 1074 < t - 1074 := by omega
    rw [compare_lt_iff_lt.mpr hstep, compare_lt_iff_lt.mpr (units_lt_of_step_lt hm ht hlt)]
    rfl
  · have hmantissas : cmp (m * 2 ^ s) (n * 2 ^ s) = cmp m n := cmp_mul_pos_right (Nat.two_pow_pos s) m n
    rw [cmp_eq_compare, cmp_eq_compare] at hmantissas
    rw [compare_eq_iff_eq.mpr rfl, hmantissas]
    rfl
  · have hstep : (t : Int) - 1074 < s - 1074 := by omega
    rw [compare_gt_iff_gt.mpr hstep, compare_gt_iff_gt.mpr (units_lt_of_step_lt hn hs hgt)]
    rfl

end Units

section Sign

/-- Numbers without a sign are compared as they are. -/
theorem compare_natCast (a b : Nat) : compare (a : Int) b = compare a b := by
  rw [← cmp_eq_compare, ← cmp_eq_compare]
  exact Int.natCast_strictMono.cmp_map_eq a b

/-- Numbers with a minus are compared the other way round. -/
theorem compare_neg (a b : Int) : compare (-a) (-b) = (compare a b).swap := by
  have hneg : StrictAnti fun n : Int => -n := fun _ _ => Int.neg_lt_neg
  rw [← cmp_eq_compare, ← cmp_eq_compare, cmp_swap]
  exact hneg.cmp_map_eq a b

end Sign

/-- The machine compares two finite numbers other than zero by their signs and their units. -/
theorem compare_finite_eq {a b : Bool} {m n s t : Nat} (hm : 0 < m) (hn : 0 < n)
    (hc : (Decoded.finite a m s).Canonical) (hd : (Decoded.finite b n t).Canonical) :
    UnpackedFloat.compare (.finite (signOf a) m (s - 1074) hm) (.finite (signOf b) n (t - 1074) hn) =
      some (compare (withSign a (m * 2 ^ s)) (withSign b (n * 2 ^ t))) := by
  have hunits := (compare_units hc.1 hc.2.2 hd.1 hd.2.2).trans (compare_natCast _ _).symm
  have hleft : 0 < withSign false (m * 2 ^ s) :=
    Int.natCast_pos.mpr (Nat.mul_pos hm (Nat.two_pow_pos s))
  have hright : 0 < withSign false (n * 2 ^ t) :=
    Int.natCast_pos.mpr (Nat.mul_pos hn (Nat.two_pow_pos t))
  cases a with
  | false =>
    cases b with
    | false => exact congrArg some hunits
    | true =>
      have hbelow : withSign true (n * 2 ^ t) < withSign false (m * 2 ^ s) :=
        (Int.neg_neg_of_pos hright).trans hleft
      exact congrArg some (compare_gt_iff_gt.mpr hbelow).symm
  | true =>
    cases b with
    | false =>
      have hbelow : withSign true (m * 2 ^ s) < withSign false (n * 2 ^ t) :=
        (Int.neg_neg_of_pos hleft).trans hright
      exact congrArg some (compare_lt_iff_lt.mpr hbelow).symm
    | true => exact congrArg some ((congrArg Ordering.swap hunits).trans (compare_neg _ _).symm)

/-- The machine compares a zero with a finite number other than zero by the sign of this. -/
theorem compare_zero_eq {a b : Bool} {n t : Nat} {e : Int} (hn : 0 < n) :
    UnpackedFloat.compare (.zero (signOf a)) (.finite (signOf b) n e hn) =
        some (compare 0 (withSign b (n * 2 ^ t))) ∧
      UnpackedFloat.compare (.finite (signOf b) n e hn) (.zero (signOf a)) =
        some (compare (withSign b (n * 2 ^ t)) 0) := by
  have hpos : 0 < withSign false (n * 2 ^ t) :=
    Int.natCast_pos.mpr (Nat.mul_pos hn (Nat.two_pow_pos t))
  cases b with
  | false =>
    rw [compare_lt_iff_lt.mpr hpos, compare_gt_iff_gt.mpr hpos]
    exact ⟨rfl, rfl⟩
  | true =>
    have hneg : withSign true (n * 2 ^ t) < 0 := Int.neg_neg_of_pos hpos
    rw [compare_lt_iff_lt.mpr hneg, compare_gt_iff_gt.mpr hneg]
    exact ⟨rfl, rfl⟩

/-- The machine compares finite values by their units. -/
theorem compare_unpacked_eq {c d : Decoded} {u v : Int} (hc : c.Canonical) (hd : d.Canonical)
    (hu : c.units? = some u) (hv : d.units? = some v) :
    c.unpacked.compare d.unpacked = some (compare u v) := by
  have hzero (negative : Bool) (step : Nat) : withSign negative (0 * 2 ^ step) = 0 := by
    rw [Nat.zero_mul]
    cases negative <;> rfl
  cases c with
  | nan | infinity => cases hu
  | finite a m s =>
    cases d with
    | nan | infinity => cases hv
    | finite b n t =>
      cases hu
      cases hv
      cases m with
      | zero =>
        cases n with
        | zero =>
          rw [hzero, hzero]
          rfl
        | succ n =>
          rw [hzero]
          exact (compare_zero_eq (Nat.succ_pos n)).1
      | succ m =>
        cases n with
        | zero =>
          rw [hzero]
          exact (compare_zero_eq (Nat.succ_pos m)).2
        | succ n => exact compare_finite_eq (Nat.succ_pos m) (Nat.succ_pos n) hc hd

section Float

variable {x y : Float} {u v : Int}

/-- The machine compares finite doubles by their units. -/
theorem compare_toModel (hx : units? x = some u) (hy : units? y = some v) :
    x.toModel.unpack.compare y.toModel.unpack = some (compare u v) := by
  rw [unpack_toModel, unpack_toModel]
  exact compare_unpacked_eq (canonical_decodeBits _) (canonical_decodeBits _) hx hy

/-- A finite double is below another one exactly if it has fewer units. -/
theorem lt_iff_units (hx : units? x = some u) (hy : units? y = some v) : x < y ↔ u < v := by
  have hlt : x < y ↔ (x.toModel.unpack.compare y.toModel.unpack == some .lt) = true :=
    decide_eq_true_iff
  rw [hlt, compare_toModel hx hy, beq_iff_eq, Option.some.injEq, compare_lt_iff_lt]

/-- A finite double is not above another one exactly if it has no more units. -/
theorem le_iff_units (hx : units? x = some u) (hy : units? y = some v) : x ≤ y ↔ u ≤ v := by
  have hle : x ≤ y ↔ (x.toModel.unpack.compare y.toModel.unpack).any (·.isLE) = true :=
    decide_eq_true_iff
  rw [hle, compare_toModel hx hy, Option.any_some, ← not_lt, ← compare_gt_iff_gt]
  cases compare u v <;> simp

end Float

section Size

/-- What the size of a double stands for. -/
def Decoded.abs : Decoded → Decoded
  | .nan => .nan
  | .infinity _ => .infinity false
  | .finite _ mantissa step => .finite false mantissa step

/-- The machine drops the sign of what a double stands for. -/
theorem unpacked_abs (d : Decoded) : d.abs.unpacked = d.unpacked.abs := by
  cases d with
  | nan | infinity => rfl
  | finite negative mantissa step => cases mantissa <;> rfl

/-- The size of a double stands for the size of its value. -/
theorem decode_abs (x : Float) : decode x.abs = (decode x).abs := by
  have habs : x.abs = .ofModel (.pack x.toModel.unpack.abs) := rfl
  have hcanonical : (decode x).Canonical := canonical_decodeBits _
  rw [habs, unpack_toModel]
  generalize decode x = d at *
  have hsize : d.abs.Canonical := by
    cases d with
    | nan | infinity => trivial
    | finite negative mantissa step => exact hcanonical
  rw [← unpacked_abs, decode_ofModel_pack hsize]

/-- A finite double is its size with its sign. -/
theorem eq_of_abs {x : Float} {negative : Bool} {mantissa step : Nat}
    (h : decode x = .finite negative mantissa step) : (if negative then -x.abs else x.abs) = x := by
  refine decode_injective ?_
  cases negative with
  | true =>
    rw [if_pos rfl, decode_neg, decode_abs, h]
    rfl
  | false =>
    rw [if_neg Bool.false_ne_true, decode_abs, h]
    rfl

end Size

end ScalarExpr.Binary64
