import ScalarExpr.Json.Numeral
import ScalarExpr.Number
import ScalarExpr.Proofs.Number.Digits
import ScalarExpr.Proofs.Number.Exact
import Mathlib.Tactic.Ring

/-!
# Numbers that are read back

A number in JSON is a sign, digits, a point with more digits, and a power of ten; all but the first
digits may be absent. Written so, it is taken apart into these parts again, whatever follows it that
does not go on with the number. If its digits fit a significand of 64 bits, none of them is lost.

A number without a point and a power is read as the integer of its digits where this fits 64 bits,
except for minus zero, and all other numbers are read as doubles.
-/

namespace ScalarExpr.Json

open Numeral

/-- The parts that a number is written with. A zero at the front stands alone before the point. -/
structure NumberParts where
  negative : Bool
  whole : List Char
  fraction : Option (List Char)
  power : Option Int
  whole_ne_nil : whole ≠ []
  areDigits_whole : AreDigits whole
  zero_alone : whole.head? = some '0' → whole.length = 1
  fraction_ne_nil : ∀ digits ∈ fraction, digits ≠ []
  areDigits_fraction : ∀ digits ∈ fraction, AreDigits digits

/-- A fraction behind its point. -/
def fractionText : Option (List Char) → List Char
  | none => []
  | some digits => '.' :: digits

/-- A power of ten behind its mark. -/
def powerText : Option Int → List Char
  | none => []
  | some power => 'e' :: Binary64.exponentDigits true power

/-- The text of a number with these parts. -/
def NumberParts.text (number : NumberParts) : List Char :=
  Binary64.signed number.negative
    (number.whole ++ (fractionText number.fraction ++ powerText number.power))

/-- A sign that may be absent, and whether it is a minus. -/
inductive SpellsSign : Bool → List Char → Prop
  | absent : SpellsSign false []
  | plus : SpellsSign false ['+']
  | minus : SpellsSign true ['-']

/-- A power of ten that may be absent. Its digits may start with zeros, and its mark has two
forms. -/
inductive SpellsPower : Option Int → List Char → Prop
  | absent : SpellsPower none []
  | present {mark : Char} {negative : Bool} {sign digits : List Char} :
    mark = 'e' ∨ mark = 'E' → SpellsSign negative sign → digits ≠ [] → AreDigits digits →
    SpellsPower (some (if negative then -(digitsValue digits : Int) else digitsValue digits))
      (mark :: (sign ++ digits))

/-- The texts of a number with these parts, which differ in how its power of ten is written. -/
def NumberParts.IsSpelled (number : NumberParts) (text : List Char) : Prop :=
  ∃ power, SpellsPower number.power power ∧
    text = Binary64.signed number.negative
      (number.whole ++ (fractionText number.fraction ++ power))

/-- The number with these parts, unless it is too large for a double. -/
def NumberParts.value? (number : NumberParts) : Option Number :=
  assemble? number.negative number.whole (number.fraction.getD []) (number.power.getD 0)
    (number.fraction.isNone && number.power.isNone)

/-- A text that does not go on with a number in front of it. -/
def EndsNumber (text : List Char) : Prop :=
  ∀ c ∈ text.head?, c.isDigit = false ∧ c ≠ '.' ∧ c ≠ 'e' ∧ c ≠ 'E'

section Parts

variable {rest : List Char}

/-- What ends a number has no digit in front. -/
theorem EndsNumber.startsNoDigit (h : EndsNumber rest) : StartsNoDigit rest :=
  fun c hc => (h c hc).1

/-- An exponent behind its mark spells its power of ten, with and without a plus in front of it. -/
theorem spellsPower_exponentDigits {mark : Char} (hmark : mark = 'e' ∨ mark = 'E') (plus : Bool)
    (power : Int) : SpellsPower (some power) (mark :: Binary64.exponentDigits plus power) := by
  have hdigits := areDigits_toDigits power.natAbs
  have hspells {negative : Bool} {sign : List Char} (hsign : SpellsSign negative sign) :=
    SpellsPower.present hmark hsign Nat.toDigits_ne_nil hdigits
  rw [digitsValue_toDigits] at hspells
  rw [Binary64.exponentDigits]
  by_cases hnegative : power < 0
  · have hminus := hspells .minus
    rw [if_pos rfl, Int.ofNat_natAbs_of_nonpos (Int.le_of_lt hnegative), Int.neg_neg] at hminus
    rw [if_pos hnegative]
    exact hminus
  · have habs : (power.natAbs : Int) = power := Int.natAbs_of_nonneg (by omega)
    rw [if_neg hnegative]
    cases plus with
    | true =>
      have hplus := hspells .plus
      rw [if_neg Bool.false_ne_true, habs] at hplus
      exact hplus
    | false =>
      have habsent := hspells .absent
      rw [if_neg Bool.false_ne_true, habs] at habsent
      exact habsent

/-- The power that is written for an exponent is one of its texts. -/
theorem spellsPower_powerText (power : Option Int) : SpellsPower power (powerText power) := by
  cases power with
  | none => exact .absent
  | some power => exact spellsPower_exponentDigits (.inl rfl) true power

/-- A sign is split off the digits behind it. -/
theorem splitSign_append {negative : Bool} {sign digits : List Char}
    (h : SpellsSign negative sign) (hne : digits ≠ []) (hdigits : AreDigits digits)
    (rest : List Char) :
    splitSign (sign ++ (digits ++ rest)) = (negative, digits ++ rest) := by
  cases h with
  | plus | minus => rfl
  | absent =>
    obtain ⟨c, digits, rfl⟩ := List.exists_cons_of_ne_nil hne
    have hc := hdigits c List.mem_cons_self
    have hminus : c ≠ '-' := by rintro rfl; cases hc
    have hplus : c ≠ '+' := by rintro rfl; cases hc
    simp [splitSign, hminus, hplus]

/-- A power is read behind its mark, or is absent. -/
theorem readExponent?_append {power : Option Int} {text : List Char} (h : SpellsPower power text)
    (hrest : EndsNumber rest) : readExponent? (text ++ rest) = some (power, rest) := by
  cases h with
  | present hmark hsign hne hdigits =>
    have hspan := spanDigits_append hdigits hrest.startsNoDigit
    simp only [List.cons_append, List.append_assoc, readExponent?, if_pos hmark, readPower?,
      splitSign_append hsign hne hdigits rest, hspan, if_neg hne]
  | absent =>
    cases rest with
    | nil => rfl
    | cons c rest =>
      obtain ⟨-, -, hsmall, hlarge⟩ := hrest c rfl
      simp [readExponent?, hsmall, hlarge]

/-- Behind the digits and the fraction of a number comes neither a digit nor a point. -/
theorem head?_of_spellsPower {power : Option Int} {text : List Char} (h : SpellsPower power text)
    (hrest : EndsNumber rest) : ∀ c ∈ (text ++ rest).head?, c.isDigit = false ∧ c ≠ '.' := by
  intro c hc
  cases h with
  | present hmark =>
    cases hc
    rcases hmark with rfl | rfl <;> decide
  | absent => exact ⟨(hrest c hc).1, (hrest c hc).2.1⟩

/-- Behind the digits of a number comes no digit. -/
theorem startsNoDigit_fractionText (fraction : Option (List Char))
    (hrest : ∀ c ∈ rest.head?, c.isDigit = false ∧ c ≠ '.') :
    StartsNoDigit (fractionText fraction ++ rest) := by
  intro c hc
  cases fraction with
  | some digits =>
    cases hc
    decide
  | none => exact (hrest c hc).1

/-- A fraction is read behind its point, or is absent. -/
theorem readFraction?_fractionText {fraction : Option (List Char)}
    (hne : ∀ digits ∈ fraction, digits ≠ []) (hdigits : ∀ digits ∈ fraction, AreDigits digits)
    (hrest : ∀ c ∈ rest.head?, c.isDigit = false ∧ c ≠ '.') :
    readFraction? (fractionText fraction ++ rest) = some (fraction, rest) := by
  cases fraction with
  | some digits =>
    have hspan := spanDigits_append (hdigits digits rfl) fun c hc => (hrest c hc).1
    simp [fractionText, readFraction?, hspan, hne digits rfl]
  | none =>
    cases rest with
    | nil => rfl
    | cons c rest =>
      have hpoint := (hrest c rfl).2
      simp [fractionText, readFraction?, hpoint]

/-- A minus is split off a number. -/
theorem splitMinus_signed {digits : List Char} (negative : Bool) (hne : digits ≠ [])
    (hdigits : AreDigits digits) (rest : List Char) :
    splitMinus (Binary64.signed negative (digits ++ rest)) = (negative, digits ++ rest) := by
  cases negative with
  | true => rfl
  | false =>
    obtain ⟨c, digits, rfl⟩ := List.exists_cons_of_ne_nil hne
    have hminus : c ≠ '-' := by
      rintro rfl
      exact absurd (hdigits '-' List.mem_cons_self) (by decide)
    simp [Binary64.signed, splitMinus, hminus]

end Parts

/-- What follows a text follows it behind its sign. -/
theorem signed_append (negative : Bool) (text rest : List Char) :
    Binary64.signed negative text ++ rest = Binary64.signed negative (text ++ rest) := by
  cases negative <;> rfl

/-- A number is taken apart into the parts that it is written with. -/
theorem readNumber?_of_isSpelled {number : NumberParts} {text rest : List Char}
    (h : number.IsSpelled text) (hrest : EndsNumber rest) :
    readNumber? (text ++ rest) = number.value?.map (·, rest) := by
  obtain ⟨power, hspells, rfl⟩ := h
  have hpower := readExponent?_append hspells hrest
  have hbehind := head?_of_spellsPower hspells hrest
  have hfraction := readFraction?_fractionText number.fraction_ne_nil number.areDigits_fraction
    hbehind
  have hwhole := spanDigits_append number.areDigits_whole
    (startsNoDigit_fractionText number.fraction hbehind)
  have hsign := splitMinus_signed number.negative number.whole_ne_nil number.areDigits_whole
    (fractionText number.fraction ++ (power ++ rest))
  have hzero : ¬ (number.whole = [] ∨ number.whole.head? = some '0' ∧ number.whole.length ≠ 1) := by
    rintro (hnil | ⟨hzero, hlength⟩)
    · exact number.whole_ne_nil hnil
    · exact hlength (number.zero_alone hzero)
  rw [signed_append, List.append_assoc, List.append_assoc, readNumber?, hsign]
  simp only [hwhole, if_neg hzero, hfraction, hpower]
  rfl

/-- The text of a number is one that spells it. -/
theorem NumberParts.isSpelled_text (number : NumberParts) : number.IsSpelled number.text :=
  ⟨_, spellsPower_powerText number.power, rfl⟩

section Assemble

variable {negative : Bool} {digits whole fraction : List Char} {power : Int}

/-- A digit is read into the significand before the digits behind it. -/
theorem value_cons (significand : Nat) (digit : Char) (digits : List Char) :
    significand * 10 ^ (digit :: digits).length + digitsValue (digit :: digits) =
      (10 * significand + (digit.toNat - '0'.toNat)) * 10 ^ digits.length + digitsValue digits := by
  have happend := digitsValue_append [digit] digits
  have hdigit : digitsValue [digit] = digit.toNat - '0'.toNat := by simp [digitsValue]
  rw [List.singleton_append, hdigit] at happend
  rw [happend, List.length_cons, Nat.pow_succ]
  ring

/-- Digits that fit a significand of 64 bits are all read. -/
theorem absorb_eq {significand : Nat}
    (h : significand * 10 ^ digits.length + digitsValue digits < 2 ^ (64 : Nat)) :
    absorb significand digits = (significand * 10 ^ digits.length + digitsValue digits, 0) := by
  induction digits generalizing significand with
  | nil => simp [absorb, digitsValue]
  | cons digit digits ih =>
    -- With its first digit read the significand is no larger than with all digits.
    rw [value_cons] at h ⊢
    have hlonger : 10 * significand + (digit.toNat - '0'.toNat) < 2 ^ (64 : Nat) := by
      have := Nat.le_mul_of_pos_right (10 * significand + (digit.toNat - '0'.toNat))
        (Nat.pow_pos (n := digits.length) (by decide : 0 < 10))
      omega
    rw [absorb, if_pos hlonger, ih h]

/-- Where all digits are read, what is read is their value. -/
theorem absorb_fst {significand : Nat} (h : (absorb significand digits).2 = 0) :
    (absorb significand digits).1 = significand * 10 ^ digits.length + digitsValue digits := by
  induction digits generalizing significand with
  | nil => simp [absorb, digitsValue]
  | cons digit digits ih =>
    rw [value_cons]
    unfold absorb at h ⊢
    dsimp only at h ⊢
    split at h
    · next hlonger =>
      rw [if_pos hlonger]
      exact ih h
    · cases h

/-- Digits that fit a significand of 64 bits are read as their value. -/
theorem absorb_zero_eq (h : digitsValue digits < 2 ^ (64 : Nat)) :
    absorb 0 digits = (digitsValue digits, 0) := by
  have habsorb := @absorb_eq digits 0
  rw [Nat.zero_mul, Nat.zero_add] at habsorb
  exact habsorb h

/-- A whole number that fits 64 bits is an integer, but for minus zero. -/
theorem assemble?_whole {value : Int64} (hfits : digitsValue whole < 2 ^ (64 : Nat))
    (hzero : ¬ (negative ∧ digitsValue whole = 0))
    (hvalue : int64? (if negative then -(digitsValue whole : Int) else digitsValue whole) =
      some value) :
    assemble? negative whole [] 0 true = some (.integer value) := by
  simp only [assemble?, absorb_zero_eq hfits, true_and, if_pos hzero, hvalue]

/-- Any other number is read as the double of its significand and its power of ten. -/
theorem assemble?_float (hfits : digitsValue (whole ++ fraction) < 2 ^ (64 : Nat)) :
    assemble? negative whole fraction power false =
      (scale? (Binary64.ofInt (digitsValue (whole ++ fraction))) (power - fraction.length)).map
        fun magnitude => .float (if negative then -magnitude else magnitude) := by
  rw [digitsValue_append] at hfits ⊢
  have hwhole : digitsValue whole < 2 ^ (64 : Nat) := by
    have := Nat.le_mul_of_pos_right (digitsValue whole)
      (Nat.pow_pos (n := fraction.length) (by decide : 0 < 10))
    omega
  simp [assemble?, absorb_zero_eq hwhole, absorb_eq hfits]

end Assemble

/-- A number without a fraction and a power is an integer if it fits 64 bits, and is then the
integer of its digits; minus zero is none. -/
structure NumberParts.IsInteger (number : NumberParts) (value : Int64) : Prop where
  fraction_eq_none : number.fraction = none
  power_eq_none : number.power = none
  not_minus_zero : ¬ (number.negative ∧ digitsValue number.whole = 0)
  toInt_eq : value.toInt =
    if number.negative then -(digitsValue number.whole : Int) else digitsValue number.whole

/-- What a number stands for: its integer, or a double if it is none. -/
def NumberParts.Denotes (number : NumberParts) : Number → Prop
  | .integer value => number.IsInteger value
  | .float x => (∀ value, ¬ number.IsInteger value) ∧ number.value? = some (.float x)

section Denotes

variable {number : NumberParts} {value : Int64}

/-- An integer is read from its digits. -/
theorem NumberParts.IsInteger.value?_eq (h : number.IsInteger value) :
    number.value? = some (.integer value) := by
  have hvalue := h.toInt_eq
  have hfits : digitsValue number.whole < 2 ^ (64 : Nat) := by
    have := value.le_toInt
    have := value.toInt_lt
    split at hvalue <;> omega
  rw [NumberParts.value?, h.fraction_eq_none, h.power_eq_none]
  exact assemble?_whole hfits h.not_minus_zero (int64?_eq_some_iff.mpr hvalue)

/-- A number that is read as an integer is this integer. -/
theorem NumberParts.isInteger_of_value? (h : number.value? = some (.integer value)) :
    number.IsInteger value := by
  unfold value? assemble? at h
  dsimp only at h
  split at h
  · next read hread =>
    cases h
    rw [Option.ite_none_right_eq_some] at hread
    obtain ⟨⟨hwhole, hskipped, hzero⟩, hread⟩ := hread
    have hdigits := absorb_fst hskipped
    rw [Nat.zero_mul, Nat.zero_add] at hdigits
    rw [hdigits] at hzero hread
    rw [Bool.and_eq_true, Option.isNone_iff_eq_none, Option.isNone_iff_eq_none] at hwhole
    exact ⟨hwhole.1, hwhole.2, hzero, int64?_eq_some_iff.mp hread⟩
  · obtain ⟨magnitude, -, heq⟩ := Option.map_eq_some_iff.mp h
    cases heq

/-- A number is read as what it stands for. -/
theorem NumberParts.value?_eq_some_iff {read : Number} :
    number.value? = some read ↔ number.Denotes read := by
  cases read with
  | integer value => exact ⟨isInteger_of_value?, IsInteger.value?_eq⟩
  | float x =>
    refine ⟨fun h => ⟨fun value hvalue => ?_, h⟩, And.right⟩
    rw [hvalue.value?_eq] at h
    cases h

end Denotes

end ScalarExpr.Json
