import ScalarExpr.Proofs.Json.Numeral
import ScalarExpr.Proofs.Number.Exact
import ScalarExpr.Proofs.Number.Roundtrip

/-!
# Numbers that are written are read back

An integer is written in its digits, and a double as its shortest decimal in one of several layouts.
Each layout is a number of JSON, and what it spells is the decimal again, though with zeros at the
end where a whole number is written up to its point and one digit further.

The reader makes a double of a decimal by arithmetic of its own. That this gives the double that was
written is what reading back rests on; everything else about the text is shown here.
-/

namespace ScalarExpr

open Json Numeral

/-- The digits of an integer spell it. -/
theorem exists_isSpelled_decimalText (value : Int64) :
    ∃ number : NumberParts, number.IsSpelled (Number.decimalText value.toInt).toList ∧
      number.Denotes (.integer value) := by
  let number : NumberParts :=
    { negative := decide (value.toInt < 0)
      whole := Nat.toDigits 10 value.toInt.natAbs
      fraction := none
      power := none
      whole_ne_nil := Nat.toDigits_ne_nil
      areDigits_whole := areDigits_toDigits _
      zero_alone := length_toDigits_of_zero
      fraction_ne_nil := nofun
      areDigits_fraction := nofun }
  have htext : (Number.decimalText value.toInt).toList = number.text := by
    rw [Number.decimalText, String.toList_ofList, NumberParts.text]
    simp only [number, fractionText, powerText, List.append_nil]
  have hdigits : digitsValue number.whole = value.toInt.natAbs := digitsValue_toDigits _
  refine ⟨number, htext ▸ number.isSpelled_text, rfl, rfl, ?_, ?_⟩
  · rw [hdigits]
    simp only [number, decide_eq_true_eq]
    omega
  · rw [hdigits]
    simp only [number, decide_eq_true_eq]
    split <;> omega

namespace Binary64

/-- A text behind a sign is a number with a point or a power, and this decimal is what it spells. -/
def Decimal.SpelledBy (decimal : Decimal) (text : List Char) : Prop :=
  ∀ negative, ∃ number : NumberParts, number.negative = negative ∧
    number.text = signed negative text ∧ (number.fraction.isNone && number.power.isNone) = false ∧
    decimal.significand = digitsValue (number.whole ++ number.fraction.getD []) ∧
    decimal.exponent = number.power.getD 0 - (number.fraction.getD []).length

section Layouts

variable {decimal : Decimal} {digits : List Char} {leading : Int}

/-- Digits behind a point and zeros spell their decimal. -/
theorem spelledBy_positional_of_neg (hsignificand : decimal.significand = digitsValue digits)
    (hexponent : decimal.exponent = leading + 1 - digits.length) (hne : digits ≠ [])
    (hdigits : AreDigits digits) (hleading : leading < 0) :
    decimal.SpelledBy (positional digits leading) := by
  intro negative
  let zeros := List.replicate (-leading - 1).toNat '0'
  let number : NumberParts :=
    { negative := negative
      whole := ['0']
      fraction := some (zeros ++ digits)
      power := none
      whole_ne_nil := nofun
      areDigits_whole := areDigits_replicate 1
      zero_alone := fun _ => rfl
      fraction_ne_nil := by
        rintro _ ⟨⟩
        simp [hne]
      areDigits_fraction := by
        rintro _ ⟨⟩
        exact (areDigits_replicate _).append hdigits }
  refine ⟨number, rfl, ?_, rfl, ?_, ?_⟩
  · simp [number, zeros, NumberParts.text, positional, hleading, fractionText, powerText]
  · rw [hsignificand]
    exact (digitsValue_replicate_append ((-leading - 1).toNat + 1) digits).symm
  · simp only [number, zeros, hexponent, Option.getD_none, Option.getD_some, List.length_append,
      List.length_replicate]
    omega

/-- Digits around a point spell their decimal. -/
theorem spelledBy_positional_of_lt (hsignificand : decimal.significand = digitsValue digits)
    (hexponent : decimal.exponent = leading + 1 - digits.length) (hdigits : AreDigits digits)
    (hzero : digits.head? ≠ some '0') (hleading : 0 ≤ leading)
    (hlength : leading + 1 < digits.length) : decimal.SpelledBy (positional digits leading) := by
  intro negative
  have hsplit := List.take_append_drop (leading.toNat + 1) digits
  have hdrop : digits.drop (leading.toNat + 1) ≠ [] := by
    rw [ne_eq, List.drop_eq_nil_iff]
    omega
  obtain ⟨hwhole, hfraction⟩ := AreDigits.of_append (hsplit.symm ▸ hdigits)
  let number : NumberParts :=
    { negative := negative
      whole := digits.take (leading.toNat + 1)
      fraction := some (digits.drop (leading.toNat + 1))
      power := none
      whole_ne_nil := by
        rw [ne_eq, List.take_eq_nil_iff]
        rintro (hnone | rfl)
        · cases hnone
        · rw [List.length_nil] at hlength
          omega
      areDigits_whole := hwhole
      zero_alone := by
        intro hhead
        rw [List.head?_take] at hhead
        exact absurd hhead hzero
      fraction_ne_nil := by
        rintro _ ⟨⟩
        exact hdrop
      areDigits_fraction := by
        rintro _ ⟨⟩
        exact hfraction }
  have hzeros : leading.toNat + 1 - digits.length = 0 := by omega
  refine ⟨number, rfl, ?_, rfl, ?_, ?_⟩
  · simp [number, NumberParts.text, positional, Int.not_lt.mpr hleading, fractionText, powerText,
      hzeros, hdrop]
  · simp only [number, hsignificand, Option.getD_some, hsplit]
  · simp only [number, hexponent, Option.getD_none, Option.getD_some, List.length_drop]
    omega

/-- Digits and zeros before a point, and a zero behind it, spell a whole decimal. -/
theorem spelledBy_positional_of_le
    (hsignificand : decimal.significand =
      digitsValue digits * 10 ^ (leading + 2 - digits.length).toNat)
    (hexponent : decimal.exponent = -1) (hne : digits ≠ []) (hdigits : AreDigits digits)
    (hzero : digits.head? = some '0' → leading = 0) (hleading : 0 ≤ leading)
    (hlength : digits.length ≤ leading + 1) : decimal.SpelledBy (positional digits leading) := by
  intro negative
  let zeros := List.replicate (leading.toNat + 1 - digits.length) '0'
  have htake : digits.take (leading.toNat + 1) = digits := List.take_of_length_le (by omega)
  have hdrop : digits.drop (leading.toNat + 1) = [] := List.drop_eq_nil_iff.mpr (by omega)
  let number : NumberParts :=
    { negative := negative
      whole := digits ++ zeros
      fraction := some ['0']
      power := none
      whole_ne_nil := List.append_ne_nil_of_left_ne_nil hne zeros
      areDigits_whole := hdigits.append (areDigits_replicate _)
      zero_alone := by
        intro hhead
        rw [List.head?_append_of_ne_nil _ hne] at hhead
        have := List.length_pos_iff.mpr hne
        have := hzero hhead
        simp only [zeros, List.length_append, List.length_replicate]
        omega
      fraction_ne_nil := by
        rintro _ ⟨⟩
        exact nofun
      areDigits_fraction := by
        rintro _ ⟨⟩
        exact areDigits_replicate 1 }
  refine ⟨number, rfl, ?_, rfl, ?_, hexponent⟩
  · simp [number, zeros, NumberParts.text, positional, Int.not_lt.mpr hleading, fractionText,
      powerText, htake, hdrop]
  · have hpower : (leading + 2 - digits.length).toNat =
        leading.toNat + 1 - digits.length + 1 := by
      omega
    rw [hsignificand, hpower, ← digitsValue_append_replicate, List.replicate_succ',
      ← List.append_assoc]
    rfl

/-- Digits with a power of ten spell their decimal. -/
theorem spelledBy_scientific (hsignificand : decimal.significand = digitsValue digits)
    (hexponent : decimal.exponent = leading + 1 - digits.length) (hne : digits ≠ [])
    (hdigits : AreDigits digits) : decimal.SpelledBy (jsonLayout.scientific digits leading) := by
  intro negative
  obtain ⟨first, others, rfl⟩ := List.exists_cons_of_ne_nil hne
  obtain ⟨hfirst, hothers⟩ := @AreDigits.of_append [first] others hdigits
  cases others with
  | nil =>
    refine ⟨{
      negative := negative
      whole := [first]
      fraction := none
      power := some leading
      whole_ne_nil := nofun
      areDigits_whole := hfirst
      zero_alone := fun _ => rfl
      fraction_ne_nil := nofun
      areDigits_fraction := nofun }, rfl, rfl, rfl, hsignificand, ?_⟩
    rw [hexponent]
    simp
  | cons second others =>
    refine ⟨{
      negative := negative
      whole := [first]
      fraction := some (second :: others)
      power := some leading
      whole_ne_nil := nofun
      areDigits_whole := hfirst
      zero_alone := fun _ => rfl
      fraction_ne_nil := by
        rintro _ ⟨⟩
        exact nofun
      areDigits_fraction := by
        rintro _ ⟨⟩
        exact hothers }, rfl, rfl, rfl, hsignificand, ?_⟩
    rw [hexponent]
    simp only [Option.getD_some, List.length_cons]
    omega

end Layouts

/-- The power of ten that the first digit of a decimal stands for. -/
def Decimal.leading (decimal : Decimal) : Int :=
  decimal.exponent + (Nat.toDigits 10 decimal.significand).length - 1

/-- The JSON text of a decimal. -/
def Decimal.jsonText (decimal : Decimal) : List Char :=
  let digits := Nat.toDigits 10 decimal.significand
  if -5 ≤ decimal.leading ∧ decimal.leading < 16 then positional digits decimal.leading
  else jsonLayout.scientific digits decimal.leading

/-- The decimal that the digits of JSON text spell. A whole number that is written without a power
of ten has all its digits, and one behind its point. -/
def Decimal.spelled (decimal : Decimal) : Decimal :=
  if 0 ≤ decimal.exponent ∧ decimal.leading < 16 then
    ⟨decimal.significand * 10 ^ (decimal.exponent + 1).toNat, -1⟩
  else decimal

/-- The decimal that is written for a finite double without its sign. -/
def written (mantissa step : Nat) : Decimal :=
  if mantissa = 0 then ⟨0, 0⟩ else shortest .even mantissa step

/-- The text of a double is that of its decimal. -/
theorem magnitude_jsonLayout (mantissa step : Nat) :
    jsonLayout.magnitude mantissa step = (written mantissa step).jsonText := by
  unfold Layout.magnitude written
  split <;> rfl

/-- The JSON text of a decimal spells it. -/
theorem Decimal.Fits.spelledBy_jsonText {decimal : Decimal} (h : decimal.Fits) :
    decimal.spelled.SpelledBy decimal.jsonText := by
  have hne : Nat.toDigits 10 decimal.significand ≠ [] := Nat.toDigits_ne_nil
  have hdigits := areDigits_toDigits decimal.significand
  have hvalue := digitsValue_toDigits decimal.significand
  have hlength := List.length_pos_iff.mpr hne
  have hleading : decimal.leading =
      decimal.exponent + (Nat.toDigits 10 decimal.significand).length - 1 := rfl
  have hexponent : decimal.exponent =
      decimal.leading + 1 - (Nat.toDigits 10 decimal.significand).length := by
    omega
  unfold spelled jsonText
  dsimp only
  by_cases hpositional : -5 ≤ decimal.leading ∧ decimal.leading < 16
  · rw [if_pos hpositional]
    rcases Int.lt_or_le decimal.exponent 0 with hfraction | hwhole
    · have hzero : decimal.significand ≠ 0 := fun hzero =>
        absurd (h.exponent_eq hzero) (Int.ne_of_lt hfraction)
      rw [if_neg (by omega)]
      rcases Int.lt_or_le decimal.leading 0 with hsmall | hlarge
      · exact spelledBy_positional_of_neg hvalue.symm hexponent hne hdigits hsmall
      · exact spelledBy_positional_of_lt hvalue.symm hexponent hdigits (head?_toDigits hzero)
          hlarge (by omega)
    · rw [if_pos ⟨hwhole, hpositional.2⟩]
      refine spelledBy_positional_of_le ?_ rfl hne hdigits ?_ (by omega) (by omega)
      · have hpower : decimal.exponent + 1 =
            decimal.leading + 2 - (Nat.toDigits 10 decimal.significand).length := by
          omega
        rw [hvalue, ← hpower]
      · intro hhead
        have hzero : decimal.significand = 0 := not_imp_not.mp head?_toDigits hhead
        have := h.exponent_eq hzero
        have := length_toDigits_of_zero hhead
        omega
  · rw [if_neg hpositional, if_neg (by omega)]
    exact spelledBy_scientific hvalue.symm hexponent hne hdigits

/-- What the text of a decimal spells has a significand of 64 bits, too. -/
theorem Decimal.Fits.spelled_significand_lt {decimal : Decimal} (h : decimal.Fits) :
    decimal.spelled.significand < 2 ^ (64 : Nat) := by
  unfold spelled
  split
  · next hwhole =>
    have hlength : 0 < (Nat.toDigits 10 decimal.significand).length :=
      List.length_pos_iff.mpr Nat.toDigits_ne_nil
    have hdigits := (Nat.length_toDigits_le_iff (by decide) hlength).mp (Nat.le_refl _)
    unfold leading at hwhole
    generalize (Nat.toDigits 10 decimal.significand).length = length at hwhole hlength hdigits
    calc
      decimal.significand * 10 ^ (decimal.exponent + 1).toNat
        < 10 ^ length * 10 ^ (decimal.exponent + 1).toNat :=
          Nat.mul_lt_mul_of_pos_right hdigits (Nat.pow_pos (by decide))
      _ = 10 ^ (length + (decimal.exponent + 1).toNat) := (Nat.pow_add 10 _ _).symm
      _ ≤ 10 ^ (17 : Nat) := Nat.pow_le_pow_right (by decide) (by omega)
      _ < 2 ^ (64 : Nat) := by decide
  · exact h.significand_lt

/-- The decimal that is written for a double has a significand of 64 bits. -/
theorem fits_written {x : Float} {negative : Bool} {mantissa step : Nat}
    (h : decode x = .finite negative mantissa step) : (written mantissa step).Fits := by
  have hcanonical := canonical_decodeBits x.toBits.toNat
  rw [← decode_eq_decodeBits, h] at hcanonical
  obtain ⟨hmantissa, hstep, -⟩ := hcanonical
  unfold written
  split
  · exact ⟨by decide, fun _ => rfl⟩
  · next hzero => exact fits_shortest .even (Nat.pos_of_ne_zero hzero) hmantissa (by omega)

/-- The double that the reader makes of the decimal written for a double is the double that was
written. -/
def ReadsBack (x : Float) : Prop :=
  match decode x with
  | .finite negative mantissa step =>
    let decimal := (written mantissa step).spelled
    mantissa ≠ 0 →
      ∃ magnitude, scale? (ofInt decimal.significand) decimal.exponent = some magnitude ∧
        (if negative then -magnitude else magnitude) = x
  | _ => True

section ReadsBack

variable {x : Float} {negative : Bool} {mantissa step : Nat}

/-- Zero is read back without further ado, with its sign. -/
theorem exists_magnitude (h : decode x = .finite negative mantissa step) (hreads : ReadsBack x) :
    ∃ magnitude, scale? (ofInt (written mantissa step).spelled.significand)
        (written mantissa step).spelled.exponent = some magnitude ∧
      (if negative then -magnitude else magnitude) = x := by
  rcases Nat.eq_zero_or_pos mantissa with rfl | hpos
  · have hscale : scale? (ofInt (0 : Nat)) (-1) = some 0.0 := by decide +kernel
    have hspelled : (written 0 step).spelled = ⟨0, -1⟩ := by
      rw [written, if_pos rfl]
      decide
    rw [hspelled]
    exact ⟨0.0, hscale, (eq_zero_of_decode h).symm⟩
  · simp only [ReadsBack, h] at hreads
    exact hreads (Nat.ne_of_gt hpos)

/-- The text of a double spells it. -/
theorem exists_isSpelled_magnitude (h : decode x = .finite negative mantissa step)
    (hreads : ReadsBack x) :
    ∃ number : NumberParts,
      number.IsSpelled (signed negative (jsonLayout.magnitude mantissa step)) ∧
        number.Denotes (.float x) := by
  obtain ⟨magnitude, hscale, hsign⟩ := exists_magnitude h hreads
  obtain ⟨number, hnegative, htext, hmark, hsignificand, hexponent⟩ :=
    (fits_written h).spelledBy_jsonText negative
  have hfits := (fits_written h).spelled_significand_lt
  rw [hsignificand] at hfits
  have hvalue : number.value? = some (.float x) := by
    rw [NumberParts.value?, hmark, assemble?_float hfits, ← hsignificand, ← hexponent, hscale,
      hnegative, Option.map_some, hsign]
  rw [magnitude_jsonLayout, ← htext]
  exact ⟨number, number.isSpelled_text, NumberParts.value?_eq_some_iff.mp hvalue⟩

end ReadsBack

end Binary64

end ScalarExpr
