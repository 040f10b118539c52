import ScalarExpr.Proofs.Json.Scaled
import ScalarExpr.Proofs.Number.Equality

/-!
# Canonical text is read back

The canonical text of a finite double is read as this double, in whichever layout: the digits are those
of its shortest decimal, perhaps with zeros behind them. The text of an integer is read as this integer.
So no two numbers have one canonical text. An integer is not mistaken for a double either, since a
finite double has a point, and the other doubles have names that no numeral has.

Canonical texts of finite doubles keep to the grammar of numbers in JSON, and are taken apart by it.
-/

namespace ScalarExpr

open Json Numeral

section Reading

/-- A sign is split off the digits that it stands before. -/
theorem splitSign_signed (negative : Bool) {digits : List Char} (hne : digits ≠ [])
    (hdigits : AreDigits digits) (rest : List Char) :
    splitSign (Binary64.signed negative (digits ++ rest)) = (negative, digits ++ rest) := by
  cases negative with
  | true => exact splitSign_append .minus hne hdigits rest
  | false => exact splitSign_append .absent hne hdigits rest

/-- Digits behind a sign are read as an integer. -/
theorem readSigned?_append {negative : Bool} {sign digits : List Char}
    (hsign : SpellsSign negative sign) (hne : digits ≠ []) (hdigits : AreDigits digits) :
    readSigned? (sign ++ digits) =
      some (if negative then -(digitsValue digits : Int) else digitsValue digits) := by
  have hsplit := splitSign_append hsign hne hdigits []
  rw [List.append_nil] at hsplit
  have hall : digits.all Char.isDigit = true := List.all_eq_true.mpr hdigits
  simp only [readSigned?, hsplit, hall, ne_eq, hne, not_false_eq_true, and_self, if_true]

/-- A power of ten is read, or is absent. -/
theorem readExponent?_of_spellsPower {power : Option Int} {text : List Char}
    (h : SpellsPower power text) : Numeral.readExponent? text = some (power.getD 0) := by
  cases h with
  | absent => rfl
  | present hmark hsign hne hdigits =>
    rw [Numeral.readExponent?, if_pos hmark, readSigned?_append hsign hne hdigits, Option.getD_some]

/-- A number of JSON is read as the double nearest its decimal. -/
theorem readDecimal?_of_isSpelled {number : NumberParts} {text : List Char}
    (h : number.IsSpelled text) :
    readDecimal? text = some (Binary64.ofDecimal number.negative
      (digitsValue (number.whole ++ number.fraction.getD []))
      (number.power.getD 0 - (number.fraction.getD []).length)) := by
  obtain ⟨power, hspells, rfl⟩ := h
  have hsign := splitSign_signed number.negative number.whole_ne_nil number.areDigits_whole
    (fractionText number.fraction ++ power)
  have hbehind : ∀ c ∈ power.head?, c.isDigit = false ∧ c ≠ '.' := by
    have hnothing : EndsNumber [] := nofun
    have hhead := head?_of_spellsPower hspells hnothing
    rwa [List.append_nil] at hhead
  have hwhole := spanDigits_append number.areDigits_whole
    (startsNoDigit_fractionText number.fraction hbehind)
  have hexponent := readExponent?_of_spellsPower hspells
  rw [readDecimal?, hsign]
  simp only [hwhole, number.whole_ne_nil, false_and, if_false]
  cases hfraction : number.fraction with
  | none =>
    cases power with
    | nil => simp [fractionText, hexponent]
    | cons c power => simp [fractionText, (hbehind c rfl).2, hexponent]
  | some digits =>
    have hspan := spanDigits_append (number.areDigits_fraction digits hfraction)
      fun c hc => (hbehind c hc).1
    simp [fractionText, hspan, hexponent]

end Reading

namespace Binary64

/-- The decimal with some of its digits behind the point. -/
def Decimal.scaled (decimal : Decimal) (places : Nat) : Decimal :=
  ⟨decimal.significand * 10 ^ places, decimal.exponent - places⟩

/-- A basin holds a decimal, wherever its point is. -/
theorem Basin.HoldsDecimal.scaled {basin : Basin} {decimal : Decimal}
    (h : basin.HoldsDecimal decimal) (places : Nat) : basin.HoldsDecimal (decimal.scaled places) := by
  have hpower := pow_finer decimal.exponent places
  have hcoarse : 0 < 10 ^ decimal.exponent.toNat := Nat.pow_pos (by decide)
  have hfine : 0 < 10 ^ places * 10 ^ (decimal.exponent - places).toNat :=
    Nat.mul_pos (Nat.pow_pos (by decide)) (Nat.pow_pos (by decide))
  rw [HoldsDecimal, two_pow_eq_four_mul_one, ← holds_mul_mul hfine] at h
  rw [HoldsDecimal, two_pow_eq_four_mul_one, ← holds_mul_mul hcoarse, ← h]
  unfold Decimal.scaled
  dsimp only
  congr 1
  · ring
  · rw [Nat.mul_comm, hpower, Nat.mul_comm]

/-- A text is read as a decimal, whatever the sign in front of it. -/
def Decimal.ReadFrom (decimal : Decimal) (text : List Char) : Prop :=
  ∀ negative, readDecimal? (signed negative text) =
    some (ofDecimal negative decimal.significand decimal.exponent)

/-- What spells a decimal is read as it. -/
theorem Decimal.SpelledBy.readFrom {decimal : Decimal} {text : List Char}
    (h : decimal.SpelledBy text) : decimal.ReadFrom text := by
  intro negative
  obtain ⟨number, rfl, htext, -, hsignificand, hexponent⟩ := h negative
  rw [← htext, readDecimal?_of_isSpelled number.isSpelled_text, ← hsignificand, ← hexponent]

/-- Digits around a point with a power of ten are read as their decimal. A single digit is followed
by a zero. -/
theorem exists_readFrom_scientific {decimal : Decimal} {digits : List Char} {leading : Int}
    (hsignificand : decimal.significand = digitsValue digits)
    (hexponent : decimal.exponent = leading + 1 - digits.length) (hne : digits ≠ [])
    (hdigits : AreDigits digits) :
    ∃ places, (decimal.scaled places).ReadFrom (canonicalLayout.scientific digits leading) := by
  obtain ⟨first, others, rfl⟩ := List.exists_cons_of_ne_nil hne
  obtain ⟨hfirst, hothers⟩ := @AreDigits.of_append [first] others hdigits
  -- The digits behind the point, with how many of them are none of the decimal's own.
  obtain ⟨places, fraction, hnone, hfraction, hvalue, hlength, htext⟩ :
      ∃ places fraction, fraction ≠ [] ∧ AreDigits fraction ∧
        digitsValue (first :: fraction) = digitsValue (first :: others) * 10 ^ places ∧
        fraction.length = others.length + places ∧
        canonicalLayout.scientific (first :: others) leading =
          [first] ++ '.' :: (fraction ++ 'E' :: exponentDigits false leading) := by
    cases others with
    | nil =>
      exact ⟨1, ['0'], nofun, areDigits_replicate 1, digitsValue_append_replicate 1 [first], rfl, rfl⟩
    | cons second others =>
      exact ⟨0, second :: others, nofun, hothers, by rw [Nat.pow_zero, Nat.mul_one], rfl, by
        simp [Layout.scientific, canonicalLayout]⟩
  refine ⟨places, fun negative => ?_⟩
  let number : NumberParts :=
    { negative := negative
      whole := [first]
      fraction := some fraction
      power := some leading
      whole_ne_nil := nofun
      areDigits_whole := hfirst
      zero_alone := fun _ => rfl
      fraction_ne_nil := by
        rintro _ ⟨⟩
        exact hnone
      areDigits_fraction := by
        rintro _ ⟨⟩
        exact hfraction }
  have hspelled : number.IsSpelled
      (signed negative (canonicalLayout.scientific (first :: others) leading)) :=
    ⟨_, spellsPower_exponentDigits (.inr rfl) false leading, congrArg (signed negative) htext⟩
  have hscaled : decimal.exponent - places = leading - fraction.length := by
    rw [hexponent, List.length_cons, hlength]
    omega
  rw [readDecimal?_of_isSpelled hspelled, Decimal.scaled, hsignificand, ← hvalue, hscaled]
  rfl

/-- The canonical text of a decimal. -/
def Decimal.canonicalText (decimal : Decimal) : List Char :=
  let digits := Nat.toDigits 10 decimal.significand
  if -3 ≤ decimal.leading ∧ decimal.leading < 7 then positional digits decimal.leading
  else canonicalLayout.scientific digits decimal.leading

/-- The canonical text of a decimal other than zero is read as it. -/
theorem Decimal.exists_readFrom_canonicalText {decimal : Decimal} (h : 0 < decimal.significand) :
    ∃ places, (decimal.scaled places).ReadFrom decimal.canonicalText := by
  have hne : Nat.toDigits 10 decimal.significand ≠ [] := Nat.toDigits_ne_nil
  have hdigits := areDigits_toDigits decimal.significand
  have hvalue := digitsValue_toDigits decimal.significand
  have hzero := head?_toDigits (Nat.ne_of_gt h)
  have hkept : decimal.scaled 0 = decimal := by simp [scaled]
  have hleading : decimal.leading =
      decimal.exponent + (Nat.toDigits 10 decimal.significand).length - 1 := rfl
  have hexponent : decimal.exponent =
      decimal.leading + 1 - (Nat.toDigits 10 decimal.significand).length := by
    omega
  unfold canonicalText
  dsimp only
  by_cases hpositional : -3 ≤ decimal.leading ∧ decimal.leading < 7
  · rw [if_pos hpositional]
    rcases Int.lt_or_le decimal.leading 0 with hsmall | hlarge
    · refine ⟨0, SpelledBy.readFrom ?_⟩
      rw [hkept]
      exact spelledBy_positional_of_neg hvalue.symm hexponent hne hdigits hsmall
    · rcases Int.lt_or_le decimal.exponent 0 with hfraction | hwhole
      · refine ⟨0, SpelledBy.readFrom ?_⟩
        rw [hkept]
        exact spelledBy_positional_of_lt hvalue.symm hexponent hdigits hzero hlarge (by omega)
      · refine ⟨(decimal.exponent + 1).toNat, SpelledBy.readFrom ?_⟩
        refine spelledBy_positional_of_le ?_ ?_ hne hdigits (absurd · hzero) hlarge (by omega)
        · have hpower : decimal.exponent + 1 =
              decimal.leading + 2 - (Nat.toDigits 10 decimal.significand).length := by
            omega
          rw [hvalue, ← hpower]
          rfl
        · simp only [scaled]
          omega
  · rw [if_neg hpositional]
    exact exists_readFrom_scientific hvalue.symm hexponent hne hdigits

section Doubles

variable {x y : Float} {negative : Bool} {mantissa step : Nat}

/-- The canonical text of a finite double is read as this double. -/
theorem readDecimal?_canonicalText (h : decode x = .finite negative mantissa step) :
    readDecimal? (canonicalText x).toList = some x := by
  have hcanonical : (decode x).Canonical := canonical_decodeBits _
  rw [h] at hcanonical
  obtain ⟨hmantissa, hstep, hnormal⟩ := hcanonical
  have htext : (canonicalText x).toList =
      signed negative (canonicalLayout.magnitude mantissa step) := by
    rw [canonicalText, h, String.toList_ofList]
  rw [htext, Layout.magnitude]
  split
  · next hzero =>
    obtain rfl : step = 0 := by omega
    have hread : readDecimal? (signed negative ['0', '.', '0']) = some (ofMagnitude negative 0) := by
      cases negative <;> rfl
    rw [hread, ← ofMagnitude_of_decode h, hzero]
    rfl
  · next hzero =>
    have hpos := Nat.pos_of_ne_zero hzero
    have hdecimal := holdsDecimal_shortest .up hpos hmantissa (by omega : step < 2046)
    obtain ⟨places, hread⟩ := Decimal.exists_readFrom_canonicalText
      (significand_pos_of_holdsDecimal hpos hdecimal)
    have hofDecimal := ofDecimal_of_holdsDecimal h hpos (hdecimal.scaled places)
    exact (hread negative).trans (congrArg some hofDecimal)

/-- The three doubles that are not finite have texts of their own. -/
theorem nonfinite_cases (h : units? x = none) :
    decode x = .nan ∧ canonicalText x = "NaN" ∨
      decode x = .infinity false ∧ canonicalText x = "Infinity" ∨
      decode x = .infinity true ∧ canonicalText x = "-Infinity" := by
  unfold units? at h
  unfold canonicalText
  cases hdecode : decode x with
  | nan => exact .inl ⟨rfl, rfl⟩
  | infinity negative =>
    cases negative with
    | false => exact .inr (.inl ⟨rfl, rfl⟩)
    | true => exact .inr (.inr ⟨rfl, rfl⟩)
  | finite negative mantissa step =>
    rw [hdecode] at h
    cases h

/-- A double with units is finite. -/
theorem exists_decode_of_units? {u : Int} (h : units? x = some u) :
    ∃ negative mantissa step, decode x = .finite negative mantissa step := by
  unfold units? at h
  cases hdecode : decode x with
  | nan | infinity =>
    rw [hdecode] at h
    cases h
  | finite negative mantissa step => exact ⟨negative, mantissa, step, rfl⟩

/-- The canonical text of a double is read as a decimal only if it is finite, and then as itself. -/
theorem readDecimal?_canonicalText_eq (x : Float) :
    readDecimal? (canonicalText x).toList = (units? x).map fun _ => x := by
  cases hunits : units? x with
  | none =>
    rcases nonfinite_cases hunits with ⟨-, htext⟩ | ⟨-, htext⟩ | ⟨-, htext⟩ <;> rw [htext] <;> rfl
  | some units =>
    obtain ⟨negative, mantissa, step, hdecode⟩ := exists_decode_of_units? hunits
    exact readDecimal?_canonicalText hdecode

/-- Doubles with the same canonical text are the same. -/
theorem canonicalText_injective : Function.Injective canonicalText := by
  intro x y h
  have hread : (units? x).map (fun _ => x) = (units? y).map fun _ => y := by
    rw [← readDecimal?_canonicalText_eq, ← readDecimal?_canonicalText_eq, h]
  cases hx : units? x with
  | some u =>
    cases hy : units? y with
    | some v => simpa only [hx, hy, Option.map_some, Option.some.injEq] using hread
    | none => simp [hx, hy] at hread
  | none =>
    cases hy : units? y with
    | some v => simp [hx, hy] at hread
    | none =>
      refine decode_injective ?_
      rcases nonfinite_cases hx with ⟨hx, htext⟩ | ⟨hx, htext⟩ | ⟨hx, htext⟩ <;>
        rcases nonfinite_cases hy with ⟨hy, htext'⟩ | ⟨hy, htext'⟩ | ⟨hy, htext'⟩ <;>
        rw [htext, htext'] at h
      all_goals first
        | exact hx.trans hy.symm
        | exact absurd h (by decide)

/-- The canonical text of a finite double has a point. -/
theorem point_mem_magnitude (mantissa step : Nat) : '.' ∈ canonicalLayout.magnitude mantissa step := by
  unfold Layout.magnitude
  split
  · decide
  · dsimp only
    split
    · unfold positional
      split <;> simp
    · unfold Layout.scientific
      dsimp only
      split <;> simp [canonicalLayout]

/-- A text with a point in it is no integer. -/
theorem readSigned?_eq_none_of_point {text : List Char} (h : '.' ∈ text) :
    readSigned? text = none := by
  have hdigits : '.' ∈ (splitSign text).2 := by
    unfold splitSign
    split
    · simpa using h
    · simpa using h
    · exact h
  unfold readSigned?
  dsimp only
  rw [if_neg]
  rintro ⟨-, hall⟩
  exact absurd (List.all_eq_true.mp hall '.' hdigits) (by decide)

/-- The canonical text of a double is not read as an integer. -/
theorem readSigned?_canonicalText (x : Float) : readSigned? (canonicalText x).toList = none := by
  cases hunits : units? x with
  | none =>
    rcases nonfinite_cases hunits with ⟨-, htext⟩ | ⟨-, htext⟩ | ⟨-, htext⟩ <;> rw [htext] <;> rfl
  | some units =>
    obtain ⟨negative, mantissa, step, hdecode⟩ := exists_decode_of_units? hunits
    refine readSigned?_eq_none_of_point ?_
    rw [canonicalText, hdecode, String.toList_ofList]
    have hpoint := point_mem_magnitude mantissa step
    cases negative with
    | false => exact hpoint
    | true => exact List.mem_cons_of_mem _ hpoint

end Doubles

end Binary64

namespace Number

/-- The text of an integer is read as this integer. -/
theorem readSigned?_decimalText (n : Int) : readSigned? (decimalText n).toList = some n := by
  have hdigits := areDigits_toDigits n.natAbs
  have hne : Nat.toDigits 10 n.natAbs ≠ [] := Nat.toDigits_ne_nil
  rw [decimalText, String.toList_ofList]
  by_cases hnegative : n < 0
  · have hread := readSigned?_append .minus hne hdigits
    rw [digitsValue_toDigits, if_pos rfl] at hread
    rw [decide_eq_true hnegative]
    refine hread.trans (congrArg some ?_)
    omega
  · have hread := readSigned?_append .absent hne hdigits
    rw [digitsValue_toDigits, if_neg Bool.false_ne_true] at hread
    rw [decide_eq_false hnegative]
    refine hread.trans (congrArg some ?_)
    omega

/-- Numbers with the same canonical text are the same. -/
theorem text_injective : Function.Injective text := by
  intro m n h
  have hread := congrArg (fun text => readSigned? text.toList) h
  cases m with
  | integer a =>
    cases n with
    | integer b =>
      simp only [text, readSigned?_decimalText, Option.some.injEq, Int64.toInt_inj] at hread
      rw [hread]
    | float y => simp [text, readSigned?_decimalText, Binary64.readSigned?_canonicalText] at hread
  | float x =>
    cases n with
    | integer b => simp [text, readSigned?_decimalText, Binary64.readSigned?_canonicalText] at hread
    | float y => rw [Binary64.canonicalText_injective h]

end Number

end ScalarExpr
