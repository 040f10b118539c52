import ScalarExpr.Number.Binary64
import Mathlib.Tactic.Ring

/-!
# Doubles in the machine and doubles decoded

The machine computes on numbers that it has taken apart into a sign, a mantissa and an exponent, and
then packs the result into bits. Both directions agree with the decoding of bits: a double is taken
apart into what it stands for, and what fits into bits is found there again.
-/

namespace ScalarExpr.Binary64

open Float.Model (Format UnpackedFloat)
open Float.Model.UnpackedFloat (Sign unpackExponent unpackMantissa unpackSign packComponents)

/-- The value that bits encode. -/
def decodeBits (bits : Nat) : Decoded :=
  let negative := decide (2 ^ 63 ≤ bits)
  let biased := bits / 2 ^ 52 % 2 ^ 11
  let fraction := bits % 2 ^ 52
  if biased = 2047 then
    if fraction = 0 then .infinity negative else .nan
  else if biased = 0 then .finite negative fraction 0
  else .finite negative (2 ^ 52 + fraction) (biased - 1)

/-- A double stands for what its bits encode. -/
theorem decode_eq_decodeBits (x : Float) : decode x = decodeBits x.toBits.toNat := rfl

/-- A natural number with a sign. -/
def withSign (negative : Bool) (n : Nat) : Int := if negative then -n else n

/-- The units that a finite double has. -/
def Decoded.units? : Decoded → Option Int
  | .finite negative mantissa step => some (withSign negative (mantissa * 2 ^ step))
  | _ => none

/-- The units that a finite double has. -/
def units? (x : Float) : Option Int := (decode x).units?

/-- The units of one. -/
@[irreducible]
def one : Nat := 2 ^ (1074 : Nat)

/-- A whole double has its units in ones. -/
theorem whole?_eq (x : Float) : whole? x =
    match decode x with
    | .finite negative mantissa step =>
      if mantissa * 2 ^ step % one = 0 then some (withSign negative (mantissa * 2 ^ step / one))
      else none
    | _ => none := by
  unfold whole? one withSign
  rfl

/-- The bits nearest a fraction are found from its units. -/
theorem magnitudeBits_eq (num den : Nat) : magnitudeBits num den =
    let coarse := num.log2 + 1021 - den.log2
    let step := if num * one < den * 2 ^ (coarse + 53) then coarse else coarse + 1
    min (step * 2 ^ 52 + roundHalfEven (num * one) (den * 2 ^ step)) infinityBits := by
  unfold magnitudeBits one
  rfl

/-- The machine's sign. -/
def signOf (negative : Bool) : Sign := if negative then .negative else .positive

/-- A mantissa and a step that fit into the bits of a double. -/
def Decoded.Canonical : Decoded → Prop
  | .finite _ mantissa step => mantissa < 2 ^ 53 ∧ step ≤ 2045 ∧ (step = 0 ∨ 2 ^ 52 ≤ mantissa)
  | _ => True

/-- What a double stands for, as the machine takes it apart. -/
def Decoded.unpacked : Decoded → UnpackedFloat
  | .nan => .notANumber
  | .infinity negative => .infinity (signOf negative)
  | .finite negative 0 _ => .zero (signOf negative)
  | .finite negative (mantissa + 1) step =>
    .finite (signOf negative) (mantissa + 1) (step - 1074) (Nat.succ_pos mantissa)

/-- The machine keeps a mantissa and counts its exponent from the units. -/
theorem Decoded.unpacked_finite {negative : Bool} {mantissa step magnitude : Nat} {exponent : Int}
    (h : 0 < magnitude) (hmagnitude : magnitude = mantissa) (hexponent : exponent = step - 1074) :
    (Decoded.finite negative mantissa step).unpacked =
      .finite (signOf negative) magnitude exponent h := by
  subst hmagnitude hexponent
  cases magnitude with
  | zero => exact absurd h (Nat.lt_irrefl 0)
  | succ magnitude => rfl

/-- The value of every bit pattern fits into bits. -/
theorem canonical_decodeBits (bits : Nat) : (decodeBits bits).Canonical := by
  unfold decodeBits
  dsimp only
  split
  · split <;> trivial
  · split
    · exact ⟨by omega, by omega, .inl rfl⟩
    · exact ⟨by omega, by omega, .inr (by omega)⟩

section Unpack

variable (b : BitVec 64)

/-- The field of the exponent. -/
theorem toNat_unpackExponent : (@unpackExponent Format.binary64 b).toNat =
    b.toNat / 2 ^ 52 % 2 ^ 11 := by
  simp [unpackExponent, Nat.shiftRight_eq_div_pow]

/-- The field of the mantissa. -/
theorem toNat_unpackMantissa : (@unpackMantissa Format.binary64 b).toNat =
    b.toNat % 2 ^ 52 := by
  simp [unpackMantissa]

/-- The field of the sign. -/
theorem ofBitVec_unpackSign : Sign.ofBitVec (@unpackSign Format.binary64 b) =
    signOf (decide (2 ^ 63 ≤ b.toNat)) := by
  have hlt := b.isLt
  have htop : (@unpackSign Format.binary64 b).toNat = b.toNat / 2 ^ 63 := by
    delta unpackSign
    simp [Nat.shiftRight_eq_div_pow]
    omega
  have hzero : @unpackSign Format.binary64 b = 0#1 ↔ b.toNat < 2 ^ 63 := by
    rw [← BitVec.toNat_inj, htop, BitVec.toNat_ofNat]
    omega
  by_cases h : b.toNat < 2 ^ 63
  · rw [Sign.ofBitVec, if_pos (hzero.mpr h), signOf, if_neg (by simpa using h)]
  · rw [Sign.ofBitVec, if_neg (mt hzero.mp h), signOf, if_pos (by simpa using h)]

/-- The machine takes bits apart into what they encode. -/
theorem unpack_eq : UnpackedFloat.unpack Format.binary64 b = (decodeBits b.toNat).unpacked := by
  have hmantissa := toNat_unpackMantissa b
  have hexponent := toNat_unpackExponent b
  have hnone : @unpackMantissa Format.binary64 b = 0#52 ↔ b.toNat % 2 ^ 52 = 0 := by
    rw [← BitVec.toNat_inj, hmantissa, BitVec.toNat_zero]
  have hlast : @unpackExponent Format.binary64 b = -1#11 ↔
      b.toNat / 2 ^ 52 % 2 ^ 11 = 2047 := by
    rw [← BitVec.toNat_inj, hexponent]
    rfl
  have hfirst : @unpackExponent Format.binary64 b = 0#11 ↔
      b.toNat / 2 ^ 52 % 2 ^ 11 = 0 := by
    rw [← BitVec.toNat_inj, hexponent, BitVec.toNat_zero]
  unfold UnpackedFloat.unpack decodeBits
  dsimp only
  rw [ofBitVec_unpackSign]
  by_cases hl : b.toNat / 2 ^ 52 % 2 ^ 11 = 2047
  · rw [if_pos (hlast.mpr hl), if_pos hl]
    by_cases hn : b.toNat % 2 ^ 52 = 0
    · rw [if_pos (hnone.mpr hn), if_pos hn]
      rfl
    · rw [if_neg (mt hnone.mp hn), if_neg hn]
      rfl
  · rw [if_neg (mt hlast.mp hl), if_neg hl]
    by_cases hf : b.toNat / 2 ^ 52 % 2 ^ 11 = 0
    · rw [if_pos (hfirst.mpr hf), if_pos hf]
      by_cases hn : b.toNat % 2 ^ 52 = 0
      · rw [dif_pos (hnone.mpr hn), hn]
        rfl
      · rw [dif_neg (mt hnone.mp hn)]
        refine (Decoded.unpacked_finite (by omega) hmantissa ?_).symm
        rw [hexponent, hf]
        rfl
    · rw [if_neg (mt hfirst.mp hf), if_neg hf]
      -- the bits leave out the highest one of a normal mantissa
      have himplicit : (1#1 ++ @unpackMantissa Format.binary64 b).toNat =
          2 ^ 52 + b.toNat % 2 ^ 52 := by
        rw [BitVec.toNat_append, hmantissa,
          ← Nat.shiftLeft_add_eq_or_of_lt (Nat.mod_lt _ (by decide))]
        rfl
      refine (Decoded.unpacked_finite (by omega) himplicit ?_).symm
      rw [hexponent]
      simp only [Format.exponentBias]
      omega

end Unpack

/-- The bits of a sign, an exponent and a fraction. -/
def joinBits (negative : Bool) (biased fraction : Nat) : Nat :=
  (if negative then 2 ^ 63 else 0) + (biased * 2 ^ 52 + fraction)

/-- What fields encode that are put together. -/
theorem decodeBits_joinBits {negative : Bool} {biased fraction : Nat} (hbiased : biased < 2 ^ 11)
    (hfraction : fraction < 2 ^ 52) : decodeBits (joinBits negative biased fraction) =
      if biased = 2047 then
        if fraction = 0 then .infinity negative else .nan
      else if biased = 0 then .finite negative fraction 0
      else .finite negative (2 ^ 52 + fraction) (biased - 1) := by
  have hnegative : decide (2 ^ 63 ≤ joinBits negative biased fraction) = negative := by
    cases negative <;> simp [joinBits]
    omega
  have hexponent : joinBits negative biased fraction / 2 ^ 52 % 2 ^ 11 = biased := by
    cases negative <;> simp [joinBits] <;> omega
  have hmantissa : joinBits negative biased fraction % 2 ^ 52 = fraction := by
    cases negative <;> simp [joinBits] <;> omega
  unfold decodeBits
  dsimp only
  rw [hnegative, hexponent, hmantissa]

/-- The machine puts fields together without a gap. -/
theorem toNat_packComponents (negative : Bool) (exponent : BitVec 11) (mantissa : BitVec 52) :
    (packComponents Format.binary64 (signOf negative) exponent mantissa).toNat =
      joinBits negative exponent.toNat mantissa.toNat := by
  unfold packComponents
  rw [BitVec.toNat_append, ← Nat.shiftLeft_add_eq_or_of_lt mantissa.isLt, BitVec.toNat_append,
    ← Nat.shiftLeft_add_eq_or_of_lt exponent.isLt]
  cases negative <;> simp [signOf, Sign.toBitVec, joinBits, Nat.shiftLeft_eq]
  omega

/-- The machine packs a value that fits into bits that encode it. -/
theorem decodeBits_pack {d : Decoded} (h : d.Canonical) :
    decodeBits (UnpackedFloat.pack Format.binary64 d.unpacked).toNat = d := by
  cases d with
  | nan => rfl
  | infinity negative => cases negative <;> rfl
  | finite negative mantissa step =>
    obtain ⟨hmantissa, hstep, hnormal⟩ := h
    by_cases hzero : mantissa = 0
    · have hfirst : step = 0 := by omega
      subst hzero hfirst
      cases negative <;> rfl
    · rw [Decoded.unpacked_finite (Nat.pos_of_ne_zero hzero) rfl rfl]
      unfold UnpackedFloat.pack
      have hbiased : ((step : Int) - 1074 + Format.binary64.exponentBias +
          Format.binary64.mantissaBitsWithoutImplicit).toNat = step + 1 := by
        simp only [Format.exponentBias]
        omega
      simp only [hbiased]
      rw [if_neg (by simp; omega)]
      by_cases hlarge : 2 ^ 52 ≤ mantissa
      · have hlog : mantissa.log2 = 52 := (Nat.log2_eq_iff hzero).mpr ⟨hlarge, hmantissa⟩
        have hexponent : (BitVec.ofNat 11 (step + 1)).toNat = step + 1 := by
          rw [BitVec.toNat_ofNat]
          omega
        have hfraction : (BitVec.ofNat 52 mantissa).toNat = mantissa - 2 ^ 52 := by
          rw [BitVec.toNat_ofNat]
          omega
        rw [if_pos (by rw [hlog]; rfl), toNat_packComponents, hexponent, hfraction,
          decodeBits_joinBits (by omega) (by omega), if_neg (by omega), if_neg (by omega),
          Nat.add_sub_cancel' hlarge, Nat.add_sub_cancel]
      · have hlog : mantissa.log2 < 52 := (Nat.log2_lt hzero).mpr (by omega)
        have hfraction : (BitVec.ofNat 52 mantissa).toNat = mantissa := by
          rw [BitVec.toNat_ofNat]
          omega
        have hfirst : step = 0 := by omega
        have hbits : Format.binary64.mantissaBits = 53 := rfl
        rw [if_neg (by rw [hbits]; omega), toNat_packComponents, hfraction, hfirst]
        exact (decodeBits_joinBits (by decide) (by omega)).trans rfl

/-- The machine's number for a value that fits stands for this value. -/
theorem decode_ofModel_pack {d : Decoded} (h : d.Canonical) :
    decode (.ofModel (.pack d.unpacked)) = d := by
  rw [decode_eq_decodeBits]
  exact decodeBits_pack h

/-- The machine takes a double apart into what it stands for. -/
theorem unpack_toModel (x : Float) : x.toModel.unpack = (decode x).unpacked := by
  rw [decode_eq_decodeBits]
  exact unpack_eq _

/-- A double made of bits stands for what the bits encode. -/
theorem decode_ofBits (bits : UInt64) : decode (.ofBits bits) = decodeBits bits.toNat := by
  have hunpack : Float.ofBits bits = .ofModel (.pack (decodeBits bits.toNat).unpacked) :=
    congrArg (fun value => Float.ofModel (.pack value)) (unpack_eq bits.toBitVec)
  rw [hunpack, decode_ofModel_pack (canonical_decodeBits _)]

end ScalarExpr.Binary64
