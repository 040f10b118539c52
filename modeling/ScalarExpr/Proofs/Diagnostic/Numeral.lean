import ScalarExpr.Proofs.Diagnostic.Verbatim
import ScalarExpr.Proofs.Number.Literal

/-!
# Evaluating numerals

A numeral evaluates to the number that it stands for, and a minus in front of it negates this number.
So digits evaluate to their value, as long as it fits 64 bits, and the canonical text of an integer
evaluates to the integer. Only the digits of the least integer stand for no integer, since they are read
without their sign.
-/

namespace ScalarExpr

open Numeral

section Numeral

variable {source : String} {negative : Bool} {taken : List Char}

/-- A text that is a numeral alone, perhaps with a minus in front of it, is read as the number that it
stands for. -/
theorem ofSource_of_sole_numeral (hlexeme : Lexeme .number taken)
    (hsource : source.toList = Binary64.signed negative taken) :
    Expr.ofSource source = (Parse.numeralResult negative taken 0).mapError SourceError.parse :=
  @ofSource_of_numeral source [] [] negative taken hlexeme nofun nofun
    (by rw [hsource, List.append_nil, List.nil_append])

/-- A text that is a numeral, perhaps with a minus in front of it, evaluates to the number that the
numeral stands for. -/
theorem evaluate_of_numeral {value : Number} (hlexeme : Lexeme .number taken)
    (hsource : source.toList = Binary64.signed negative taken)
    (hvalue : Number.ofNumeral? taken = some value) :
    evaluate source = .ok (.number (if negative then value.negate else value)) := by
  have htree := ofSource_of_sole_numeral hlexeme hsource
  rw [Parse.numeralResult, hvalue] at htree
  rw [evaluate_eq_evaluateWith, evaluateWith_of_ofSource htree]
  cases negative <;> rfl

/-- A text that is a numeral, perhaps with a minus in front of it, is refused if the numeral stands for
no number. -/
theorem evaluate_of_no_number (hlexeme : Lexeme .number taken)
    (hsource : source.toList = Binary64.signed negative taken)
    (hvalue : Number.ofNumeral? taken = none) :
    evaluate source =
      .error ⟨.parse, "Invalid number literal", negative.toNat, some source⟩ := by
  have htree := ofSource_of_sole_numeral hlexeme hsource
  rw [Parse.numeralResult, hvalue] at htree
  rw [evaluate_eq_evaluateWith, evaluateWith_of_ofSource_error htree]
  cases negative <;> rfl

end Numeral

/-- The text of an integer is its digits, with a minus in front of them if it is negative. -/
theorem Value.toList_text_integer (n : Int64) : (Value.number (.integer n)).text.toList =
    Binary64.signed (decide (n.toInt < 0)) (Nat.toDigits 10 n.toInt.natAbs) :=
  String.toList_ofList

/-- The digits of a number are a numeral. -/
theorem lexeme_toDigits (n : Nat) : Lexeme .number (Nat.toDigits 10 n) :=
  .whole Nat.toDigits_ne_nil (areDigits_toDigits n)

/-- Digits evaluate to their value, whatever their number and zeros in front of them, as long as the
value is below `2 ^ 63`, and are refused otherwise. So the canonical text of an integer evaluates to the
integer. That of the least one is refused behind its sign. -/
theorem evaluate_integer_texts :
    (∀ digits : String, digits.toList ≠ [] → (∀ c ∈ digits.toList, c.isDigit) →
      let value := Nat.ofDigitChars 10 digits.toList 0
      (value < 2 ^ (63 : Nat) →
        ∃ n : Int64, n.toInt = value ∧ evaluate digits = .ok (.number (.integer n))) ∧
        (2 ^ (63 : Nat) ≤ value →
          evaluate digits = .error ⟨.parse, "Invalid number literal", 0, some digits⟩)) ∧
    (∀ n : Int64, n ≠ Int64.minValue →
      evaluate (Value.number (.integer n)).text = .ok (.number (.integer n))) ∧
    evaluate (Value.number (.integer Int64.minValue)).text =
      .error ⟨.parse, "Invalid number literal", 1,
        some (Value.number (.integer Int64.minValue)).text⟩ := by
  refine ⟨?_, ?_, ?_⟩
  · intro digits hne hdigits value
    have hlexeme : Lexeme .number digits.toList := .whole hne hdigits
    refine ⟨fun hfits => ?_, fun hlarge => ?_⟩
    · obtain ⟨n, hvalue, hnumeral⟩ := Number.exists_ofNumeral?_of_lt hne hdigits hfits
      exact ⟨n, hvalue, @evaluate_of_numeral _ false _ _ hlexeme rfl hnumeral⟩
    · exact @evaluate_of_no_number _ false _ hlexeme rfl (Number.ofNumeral?_of_le hne hdigits hlarge)
  · intro n hleast
    have hlow : n.toInt ≠ -2 ^ (63 : Nat) := fun h => hleast (Int64.toInt_inj.mp h)
    have hbounds := n.le_toInt
    have hbounds' := n.toInt_lt
    have hdigits := areDigits_toDigits n.toInt.natAbs
    have hsize := digitsValue_toDigits n.toInt.natAbs
    obtain ⟨size, hvalue, hnumeral⟩ :=
      Number.exists_ofNumeral?_of_lt Nat.toDigits_ne_nil hdigits (by omega)
    rw [evaluate_of_numeral (lexeme_toDigits _) (Value.toList_text_integer n) hnumeral]
    by_cases hnegative : n.toInt < 0
    · have hopposite : n.toInt = -size.toInt := by omega
      rw [if_pos (decide_eq_true hnegative), Number.negate_integer hopposite]
    · have hsame : size = n := Int64.toInt_inj.mp (by omega)
      rw [if_neg (by simpa using hnegative), hsame]
  · have hlarge : 2 ^ (63 : Nat) ≤ digitsValue (Nat.toDigits 10 Int64.minValue.toInt.natAbs) := by
      rw [digitsValue_toDigits]
      decide
    exact evaluate_of_no_number (lexeme_toDigits _) (Value.toList_text_integer Int64.minValue)
      (Number.ofNumeral?_of_le Nat.toDigits_ne_nil (areDigits_toDigits _) hlarge)

/-- Digits with zeros in front of them evaluate to their value, digits past the greatest integer are
refused, and the text of a negative integer evaluates to it. -/
theorem evaluate_integer_texts_of_digits :
    (∃ n : Int64, n.toInt = Nat.ofDigitChars 10 "007".toList 0 ∧
      evaluate "007" = .ok (.number (.integer n))) ∧
      evaluate "9223372036854775808" =
        .error ⟨.parse, "Invalid number literal", 0, some "9223372036854775808"⟩ ∧
      evaluate (Value.number (.integer (-5))).text = .ok (.number (.integer (-5))) := by
  obtain ⟨hdigits, htext, -⟩ := evaluate_integer_texts
  exact ⟨(hdigits "007" (by decide) (List.all_eq_true.mp rfl)).1 (by decide),
    (hdigits "9223372036854775808" (by decide) (List.all_eq_true.mp rfl)).2 (by decide),
    htext (-5) (by decide)⟩

end ScalarExpr
