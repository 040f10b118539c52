import ScalarExpr.Number.Binary64

/-!
# Reading numerals

Two grammars of numerals over ASCII digits. An integer is an optional sign and digits, and has to
fit 64 bits. A decimal may have a sign, a point and an exponent, needs a digit on one side of the
point, and is the double nearest its value: one that is too large reads as infinity.
-/

namespace ScalarExpr

/-- The 64-bit integer with this value, if there is one. -/
def int64? (n : Int) : Option Int64 :=
  if -2 ^ (63 : Nat) ≤ n ∧ n < 2 ^ (63 : Nat) then some (Int64.ofInt n) else none

namespace Numeral

/-- The digits at the start of a text, and what follows them. -/
def spanDigits (text : List Char) : List Char × List Char :=
  (text.takeWhile Char.isDigit, text.dropWhile Char.isDigit)

/-- The value of a run of ASCII digits. -/
def digitsValue (digits : List Char) : Nat :=
  digits.foldl (fun value digit => 10 * value + (digit.toNat - '0'.toNat)) 0

/-- A sign at the start of a text, as whether it is a minus, and what follows it. -/
def splitSign : List Char → Bool × List Char
  | '-' :: rest => (true, rest)
  | '+' :: rest => (false, rest)
  | rest => (false, rest)

/-- A whole number with an optional sign, if the text is one. -/
def readSigned? (text : List Char) : Option Int :=
  let (negative, digits) := splitSign text
  if digits ≠ [] ∧ digits.all Char.isDigit then
    some (if negative then -(digitsValue digits : Int) else (digitsValue digits : Int))
  else none

/-- A whole number with an optional sign that fits 64 bits. -/
def readInteger? (text : List Char) : Option Int64 :=
  (readSigned? text).bind int64?

/-- The exponent that a decimal ends with; nothing at all stands for zero. -/
def readExponent? : List Char → Option Int
  | [] => some 0
  | mark :: rest => if mark = 'e' ∨ mark = 'E' then readSigned? rest else none

/-- A decimal, rounded to the nearest double. -/
def readDecimal? (text : List Char) : Option Float :=
  let (negative, unsigned) := splitSign text
  let (whole, rest) := spanDigits unsigned
  let (fraction, rest) :=
    match rest with
    | '.' :: rest => spanDigits rest
    | rest => ([], rest)
  if whole = [] ∧ fraction = [] then none
  else
    (readExponent? rest).map fun exponent =>
      Binary64.ofDecimal negative (digitsValue (whole ++ fraction)) (exponent - fraction.length)

end Numeral

end ScalarExpr
