import ScalarExpr.Proofs.Number.Literal
import ScalarExpr.Proofs.Parsing.Leaf

/-!
# Numerals that fit

Digits without a point are an integer literal as long as their value fits 64 bits, and are refused at
their place otherwise. With a point they are never refused: a value that is too large for every double is
a literal all the same, and stands for infinity.
-/

namespace ScalarExpr

open Binary64 Numeral

/-- Digits with a point between blanks are read as the double nearest their value. -/
theorem ofSource_of_point {source : String} {front digits fraction back : List Char}
    (hfront : IsGap front) (hback : IsGap back) (hne : digits ≠ []) (hdigits : AreDigits digits)
    (hfraction : AreDigits fraction)
    (hsource : source.toList = front ++ (digits ++ '.' :: fraction ++ back)) :
    Expr.ofSource source = .ok (.number (.float
      (nearest false (digitsValue (digits ++ fraction)) (10 ^ fraction.length))) front.length) := by
  rw [@ofSource_of_numeral source front back false _ (.decimal hne hdigits hfraction) hfront hback
    hsource, Parse.numeralResult, Number.ofNumeral?_of_point hne hdigits hfraction]
  rfl

/-- Digits between blanks are the integer literal of their value if this is below `2 ^ 63`, and are
refused where they stand otherwise. With a point behind them, and perhaps more digits, they are the literal
of the double that their value is rounded to, which is infinite from `2 ^ 1024 - 2 ^ 970` on. -/
theorem literals_of_numerals {front digits back : String} (hfront : IsGap front.toList)
    (hback : IsGap back.toList) (hne : digits.toList ≠ []) (hdigits : ∀ c ∈ digits.toList, c.isDigit) :
    (let value := Nat.ofDigitChars 10 digits.toList 0
      let answer := Expr.ofSource (front ++ digits ++ back)
      (value < 2 ^ (63 : Nat) →
        ∃ n : Int64, n.toInt = value ∧ answer = .ok (.number (.integer n) front.length)) ∧
        (2 ^ (63 : Nat) ≤ value → answer = .error (.parse (.invalidNumber front.length)))) ∧
    ∀ fraction : String, (∀ c ∈ fraction.toList, c.isDigit) →
      let value := Nat.ofDigitChars 10 (digits.toList ++ fraction.toList) 0
      let parts := 10 ^ fraction.length
      ∃ x, Expr.ofSource (front ++ digits ++ "." ++ fraction ++ back) =
          .ok (.number (.float x) front.length) ∧
        IsRounded x false (value * one) parts ∧
        (decode x = .infinity false ↔ (2 ^ (1024 : Nat) - 2 ^ (970 : Nat)) * parts ≤ value) := by
  refine ⟨?_, ?_⟩
  · intro value answer
    have hanswer : answer =
        (Parse.numeralResult false digits.toList front.length).mapError SourceError.parse := by
      refine ofSource_of_numeral (.whole hne hdigits) hfront hback ?_
      simp [signed]
    refine ⟨fun hfits => ?_, fun hlarge => ?_⟩
    · obtain ⟨n, hvalue, hnumeral⟩ := Number.exists_ofNumeral?_of_lt hne hdigits hfits
      refine ⟨n, hvalue, ?_⟩
      rw [hanswer, Parse.numeralResult, hnumeral]
      rfl
    · rw [hanswer, Parse.numeralResult, Number.ofNumeral?_of_le hne hdigits hlarge]
      rfl
  · intro fraction hfraction value parts
    have hparts : 0 < parts := Nat.pow_pos (by decide)
    refine ⟨nearest false value parts, ?_, isRounded_nearest false value hparts, ?_⟩
    · exact ofSource_of_point hfront hback hne hdigits hfraction (by simp)
    · -- The exponents are named, so that the powers are not evaluated.
      obtain ⟨low, high, hlow, hhigh, hsum⟩ : ∃ low high, low = 970 ∧ high = 1024 ∧ high = 54 + low :=
        ⟨970, 1024, rfl, rfl, rfl⟩
      rw [decode_nearest_iff hparts, ← hlow, ← hhigh, hsum, Nat.sub_mul (2 ^ 54), ← Nat.pow_add,
        Nat.one_mul]

/-- A number with zeros in front of it, one past the greatest integer, and one with a point. -/
theorem literals_of_numerals_between_blanks :
    (∃ n : Int64, n.toInt = Nat.ofDigitChars 10 "0042".toList 0 ∧
      Expr.ofSource (" " ++ "0042" ++ "\n") = .ok (.number (.integer n) 1)) ∧
      Expr.ofSource (" " ++ "9223372036854775808" ++ "") = .error (.parse (.invalidNumber 1)) ∧
      ∃ x, Expr.ofSource ("" ++ "2" ++ "." ++ "5" ++ " ") = .ok (.number (.float x) 0) ∧
        IsRounded x false (25 * one) 10 ∧
        (decode x = .infinity false ↔ (2 ^ (1024 : Nat) - 2 ^ (970 : Nat)) * 10 ≤ 25) := by
  obtain ⟨hsmall, -⟩ := @literals_of_numerals " " "0042" "\n" (by decide) (by decide) (by decide)
    (List.all_eq_true.mp rfl)
  obtain ⟨hlarge, -⟩ := @literals_of_numerals " " "9223372036854775808" "" (by decide) (by decide)
    (by decide) (List.all_eq_true.mp rfl)
  obtain ⟨-, hpoint⟩ := @literals_of_numerals "" "2" " " (by decide) (by decide) (by decide)
    (List.all_eq_true.mp rfl)
  refine ⟨hsmall.1 (by decide), hlarge.2 (by decide), ?_⟩
  have hvalue : Nat.ofDigitChars 10 ("2".toList ++ "5".toList) 0 = 25 := by decide
  have hparts : 10 ^ "5".length = 10 := by decide
  have hliteral := hpoint "5" (List.all_eq_true.mp rfl)
  dsimp only at hliteral
  rw [hvalue, hparts] at hliteral
  exact hliteral

/-- The digits of `2 * 10 ^ 308` with a point behind them are a literal, which is infinite. -/
theorem literal_of_too_large : ∃ x,
    Expr.ofSource (String.ofList ('2' :: List.replicate 308 '0' ++ ['.'])) =
      .ok (.number (.float x) 0) ∧ decode x = .infinity false := by
  have hfirst : AreDigits ['2'] := List.all_eq_true.mp rfl
  have hdigits : AreDigits ('2' :: List.replicate 308 '0') := hfirst.append (areDigits_replicate 308)
  have hinfinite := (@decode_nearest_iff (digitsValue ('2' :: List.replicate 308 '0' ++ []))
    (10 ^ List.length ([] : List Char)) false Nat.one_pos).mpr (by decide +kernel)
  have hnone : AreDigits [] := nofun
  have hgap : IsGap [] := nofun
  have hsource : (String.ofList ('2' :: List.replicate 308 '0' ++ ['.'])).toList =
      [] ++ ('2' :: List.replicate 308 '0' ++ '.' :: [] ++ []) := by
    rw [String.toList_ofList, List.append_nil, List.nil_append]
  exact ⟨_, ofSource_of_point hgap hgap (List.cons_ne_nil _ _) hdigits hnone hsource,
    hinfinite⟩

end ScalarExpr
