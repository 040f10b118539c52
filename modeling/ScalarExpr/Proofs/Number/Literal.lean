import ScalarExpr.Number
import ScalarExpr.Proofs.Number.Canonical
import ScalarExpr.Proofs.Number.Exact
import ScalarExpr.Proofs.Number.Overflow

/-!
# Numerals of expressions

A numeral of an expression has no sign and no exponent. Digits alone stand for an integer, if this fits
64 bits. Digits with a point among them or behind them always stand for a double, which is the nearest to
their value and may be infinity.
-/

namespace ScalarExpr.Number

open Numeral

section Numeral

variable {digits fraction : List Char}

/-- Digits are read as an integer only. -/
theorem ofNumeral?_of_digits (hne : digits ≠ []) (hdigits : AreDigits digits) :
    ofNumeral? digits = (int64? (digitsValue digits)).map .integer := by
  have hpoint : digits.contains '.' = false := by
    rw [← Bool.not_eq_true, List.contains_iff_mem]
    exact fun hmem => absurd (hdigits '.' hmem) (by decide)
  have hread : readSigned? digits = some (digitsValue digits : Int) :=
    readSigned?_append .absent hne hdigits
  rw [ofNumeral?, hpoint, if_neg Bool.false_ne_true, readInteger?, hread, Option.bind_some]

/-- Digits stand for the integer that is their value, if it fits 64 bits. -/
theorem exists_ofNumeral?_of_lt (hne : digits ≠ []) (hdigits : AreDigits digits)
    (hfits : digitsValue digits < 2 ^ (63 : Nat)) :
    ∃ n : Int64, n.toInt = digitsValue digits ∧ ofNumeral? digits = some (.integer n) := by
  have hvalue : int64? (digitsValue digits) = some (Int64.ofInt (digitsValue digits)) :=
    if_pos (by omega)
  refine ⟨_, int64?_eq_some_iff.mp hvalue, ?_⟩
  rw [ofNumeral?_of_digits hne hdigits, hvalue, Option.map_some]

/-- Digits whose value does not fit 64 bits stand for no number. -/
theorem ofNumeral?_of_le (hne : digits ≠ []) (hdigits : AreDigits digits)
    (hlarge : 2 ^ (63 : Nat) ≤ digitsValue digits) : ofNumeral? digits = none := by
  have hvalue : int64? (digitsValue digits) = none := int64?_eq_none_iff.mpr (by omega)
  rw [ofNumeral?_of_digits hne hdigits, hvalue, Option.map_none]

/-- Digits with a point stand for the double nearest their value. -/
theorem ofNumeral?_of_point (hne : digits ≠ []) (hdigits : AreDigits digits)
    (hfraction : AreDigits fraction) :
    ofNumeral? (digits ++ '.' :: fraction) = some (.float
      (Binary64.nearest false (digitsValue (digits ++ fraction)) (10 ^ fraction.length))) := by
  have hpoint : (digits ++ '.' :: fraction).contains '.' = true := by simp
  have hsign := splitSign_signed false hne hdigits ('.' :: fraction)
  have hwhole : spanDigits (digits ++ '.' :: fraction) = (digits, '.' :: fraction) := by
    refine spanDigits_append hdigits ?_
    rintro c ⟨⟩
    rfl
  have hbehind : spanDigits fraction = (fraction, []) := by
    have hspan := @spanDigits_append fraction [] hfraction nofun
    rwa [List.append_nil] at hspan
  have hread : readDecimal? (digits ++ '.' :: fraction) = some
      (Binary64.nearest false (digitsValue (digits ++ fraction)) (10 ^ fraction.length)) := by
    rw [Binary64.signed, if_neg Bool.false_ne_true] at hsign
    rw [readDecimal?, hsign]
    simp [hwhole, hbehind, hne, readExponent?, Binary64.ofDecimal_eq_nearest]
  rw [ofNumeral?, hpoint, if_pos rfl, hread, Option.map_some]

end Numeral

end ScalarExpr.Number
