import ScalarExpr.Proofs.Number.Roundtrip

/-!
# When doubles are equal

The machine compares doubles that it has taken apart. Two of them are equal in this sense if they are
one and the same and it is a number, or if both are zero, of whatever sign. So it is an equivalence on
all doubles but the one that is no number, which is not even equal to itself.
-/

namespace ScalarExpr.Binary64

open Float.Model (Format UnpackedFloat)
open Float.Model.UnpackedFloat (packedNaN unpackExponent unpackMantissa)

section Bits

variable {x : Float}

/-- The bits of an infinity. -/
theorem toNat_toBits_of_infinity {negative : Bool} (h : decode x = .infinity negative) :
    x.toBits.toNat = (if negative then 2 ^ 63 else 0) + 2047 * 2 ^ 52 := by
  have hlt := x.toBits.toNat_lt
  rw [decode_eq_decodeBits] at h
  unfold decodeBits at h
  dsimp only at h
  split at h
  · split at h
    · cases h
      by_cases hnegative : 2 ^ 63 ≤ x.toBits.toNat
      · rw [if_pos (decide_eq_true hnegative)]
        omega
      · rw [if_neg (by simpa using hnegative)]
        omega
    · cases h
  · split at h <;> cases h

/-- The bits of what is no number: the machine has no payloads. -/
theorem toBitVec_toBits_of_nan (h : decode x = .nan) :
    x.toBits.toBitVec = packedNaN Format.binary64 := by
  rw [decode_eq_decodeBits] at h
  unfold decodeBits at h
  dsimp only at h
  split at h
  · next hlast =>
    split at h
    · cases h
    · next hpayload =>
      refine x.toModel.valid.eq_packedNaN ?_ ?_
      · rw [← BitVec.toNat_inj, toNat_unpackExponent]
        exact hlast
      · rw [ne_eq, ← BitVec.toNat_inj, toNat_unpackMantissa]
        exact hpayload
  · split at h <;> cases h

/-- Doubles that stand for the same are the same. -/
theorem decode_injective : Function.Injective decode := by
  intro x y h
  cases hx : decode x with
  | nan =>
    refine eq_of_toBits_eq (UInt64.toBitVec_inj.mp ?_)
    rw [toBitVec_toBits_of_nan hx, toBitVec_toBits_of_nan (h ▸ hx)]
  | infinity negative =>
    refine eq_of_toBits_eq (UInt64.toNat_inj.mp ?_)
    rw [toNat_toBits_of_infinity hx, toNat_toBits_of_infinity (h ▸ hx)]
  | finite negative mantissa step => exact eq_of_decode hx (h ▸ hx)

/-- The machine sees whether a double is a number. -/
theorem isNaN_iff : x.isNaN = true ↔ decode x = .nan := by
  have hunpack : x.isNaN = (decode x).unpacked.isNaN := by
    rw [← unpack_toModel]
    rfl
  rw [hunpack]
  cases decode x with
  | nan => exact ⟨fun _ => rfl, fun _ => rfl⟩
  | infinity => exact ⟨nofun, nofun⟩
  | finite negative mantissa step => cases mantissa <;> exact ⟨nofun, nofun⟩

/-- A double with units is a number. -/
theorem isNaN_of_units? {u : Int} (h : units? x = some u) : x.isNaN = false := by
  rw [← Bool.not_eq_true, isNaN_iff]
  intro hnan
  rw [units?, hnan] at h
  cases h

end Bits

section Compare

/-- What a double stands for is zero, of either sign. -/
def Decoded.IsZero : Decoded → Prop
  | .finite _ mantissa _ => mantissa = 0
  | _ => False

/-- A double is zero exactly if it stands for zero. -/
theorem isZero_iff_decode {x : Float} : isZero x = true ↔ (decode x).IsZero := by
  unfold isZero Decoded.IsZero
  cases decode x with
  | nan | infinity => exact ⟨nofun, nofun⟩
  | finite negative mantissa step => exact beq_iff_eq

/-- Only the zero of either sign is zero. -/
theorem isZero_iff_eq {x : Float} : isZero x = true ↔ x = 0.0 ∨ x = -0.0 := by
  constructor
  · intro h
    rw [isZero_iff_decode] at h
    cases hdecode : decode x with
    | nan | infinity =>
      rw [hdecode] at h
      exact h.elim
    | finite negative mantissa step =>
      rw [hdecode] at h
      obtain rfl : mantissa = 0 := h
      have hzero := eq_zero_of_decode hdecode
      cases negative with
      | true => exact .inr hzero
      | false => exact .inl hzero
  · rintro (rfl | rfl)
    · decide
    · decide

/-- The machine finds two infinities equal exactly if their signs are. -/
theorem compare_infinity {a b : Bool} :
    UnpackedFloat.compare (.infinity (signOf a)) (.infinity (signOf b)) = some .eq ↔ a = b := by
  cases a <;> cases b <;> decide

/-- The machine finds two finite numbers other than zero equal exactly if all their parts are. -/
theorem compare_finite {a b : Bool} {m n : Nat} {e f : Int} (hm : 0 < m) (hn : 0 < n) :
    UnpackedFloat.compare (.finite (signOf a) m e hm) (.finite (signOf b) n f hn) = some .eq ↔
      a = b ∧ m = n ∧ e = f := by
  cases a with
  | false =>
    cases b with
    | false =>
      show some ((compare e f).then (compare m n)) = some .eq ↔ _
      simp [Ordering.then_eq_eq, and_comm]
    | true =>
      show some Ordering.gt = some .eq ↔ _
      simp
  | true =>
    cases b with
    | false =>
      show some Ordering.lt = some .eq ↔ _
      simp
    | true =>
      show some ((compare e f).then (compare m n)).swap = some .eq ↔ _
      simp [Ordering.then_eq_eq, and_comm]

attribute [local simp] Decoded.IsZero

/-- The machine finds two values equal exactly if they are one number, or both zero. -/
theorem compare_unpacked {c d : Decoded} :
    c.unpacked.compare d.unpacked = some .eq ↔ c = d ∧ c ≠ .nan ∨ c.IsZero ∧ d.IsZero := by
  cases c with
  | nan => exact iff_of_false nofun (by simp)
  | infinity a =>
    cases d with
    | nan => exact iff_of_false nofun (by simp)
    | infinity b =>
      rw [Decoded.unpacked, Decoded.unpacked, compare_infinity]
      simp
    | finite b n t => cases a <;> cases n <;> exact iff_of_false nofun (by simp)
  | finite a m s =>
    cases d with
    | nan => cases m <;> exact iff_of_false nofun (by simp)
    | infinity b => cases m <;> cases b <;> exact iff_of_false nofun (by simp)
    | finite b n t =>
      cases m with
      | zero =>
        cases n with
        | zero => exact iff_of_true rfl (by simp)
        | succ n => cases b <;> exact iff_of_false nofun (by simp)
      | succ m =>
        cases n with
        | zero => cases a <;> exact iff_of_false nofun (by simp)
        | succ n =>
          rw [Decoded.unpacked, Decoded.unpacked, compare_finite]
          simp

end Compare

section Equal

variable {x y z : Float}

/-- Two doubles are equal exactly if they are one number, or both zero. -/
theorem beq_iff : (x == y) = true ↔ x = y ∧ x.isNaN = false ∨ isZero x = true ∧ isZero y = true := by
  have hcompare : (x == y) = ((decode x).unpacked.compare (decode y).unpacked == some .eq) := by
    rw [← unpack_toModel, ← unpack_toModel]
    rfl
  rw [hcompare, beq_iff_eq, compare_unpacked, decode_injective.eq_iff, ne_eq, ← isNaN_iff,
    Bool.not_eq_true, isZero_iff_decode, isZero_iff_decode]

/-- It does not matter which of two doubles comes first. -/
theorem beq_comm (x y : Float) : (x == y) = (y == x) := by
  rw [Bool.eq_iff_iff, beq_iff, beq_iff]
  constructor
  · rintro (⟨rfl, hnumber⟩ | ⟨hx, hy⟩)
    · exact .inl ⟨rfl, hnumber⟩
    · exact .inr ⟨hy, hx⟩
  · rintro (⟨rfl, hnumber⟩ | ⟨hy, hx⟩)
    · exact .inl ⟨rfl, hnumber⟩
    · exact .inr ⟨hx, hy⟩

/-- A double is equal to itself exactly if it is a number. -/
theorem beq_self_iff : (x == x) = true ↔ x.isNaN = false := by
  rw [beq_iff]
  constructor
  · rintro (⟨-, hnumber⟩ | ⟨hzero, -⟩)
    · exact hnumber
    · exact isNaN_of_units? (isZero_iff.mp hzero)
  · exact fun hnumber => .inl ⟨rfl, hnumber⟩

/-- Doubles that are equal to a third one are equal. -/
theorem beq_trans (hxy : (x == y) = true) (hyz : (y == z) = true) : (x == z) = true := by
  rw [beq_iff] at hxy hyz ⊢
  rcases hxy with ⟨rfl, -⟩ | ⟨hx, hy⟩
  · exact hyz
  · rcases hyz with ⟨rfl, -⟩ | ⟨-, hz⟩
    · exact .inr ⟨hx, hy⟩
    · exact .inr ⟨hx, hz⟩

end Equal

end ScalarExpr.Binary64
