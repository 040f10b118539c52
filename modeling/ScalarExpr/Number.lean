import ScalarExpr.Number.Numeral
import ScalarExpr.Number.Layout

/-!
# Numbers

A number is a 64-bit integer or a double. Arithmetic on two integers is exact as long as its result
is an integer that fits; otherwise it is done on the doubles nearest the operands, and a whole result
that fits 64 bits is an integer again. One double operand makes the result a double.

Only a division can fail. A remainder by zero is no number, and no failure.
-/

namespace ScalarExpr

/-- A number; the two kinds are kept apart even where their values agree. -/
inductive Number
  | integer (value : Int64)
  | float (value : Float)
  deriving DecidableEq

/-- The operators that work on numbers. -/
inductive Arithmetic
  | add
  | subtract
  | multiply
  | divide
  | remainder
  deriving DecidableEq, Repr

namespace Arithmetic

/-- The exact result on integers, where there is one that is an integer. A remainder comes with its
quotient, which has to fit 64 bits. -/
def onIntegers? : Arithmetic → Int → Int → Option Int
  | .add, a, b => some (a + b)
  | .subtract, a, b => some (a - b)
  | .multiply, a, b => some (a * b)
  | .divide, a, b => if b ≠ 0 ∧ a.tmod b = 0 then some (a.tdiv b) else none
  | .remainder, a, b => if b ≠ 0 ∧ (int64? (a.tdiv b)).isSome then some (a.tmod b) else none

/-- The result on doubles. -/
def onFloats : Arithmetic → Float → Float → Float
  | .add, a, b => a + b
  | .subtract, a, b => a - b
  | .multiply, a, b => a * b
  | .divide, a, b => a / b
  | .remainder, a, b => Binary64.remainder a b

end Arithmetic

namespace Number

/-- A numeral with a point is a double, any other an integer. -/
def ofNumeral? (text : List Char) : Option Number :=
  if text.contains '.' then (Numeral.readDecimal? text).map .float
  else (Numeral.readInteger? text).map .integer

/-- The double nearest a number. -/
def toFloat : Number → Float
  | .integer value => Binary64.ofInt value.toInt
  | .float value => value

/-- Whether a number is zero; a double is of either sign then. -/
def isZero : Number → Bool
  | .integer value => value == 0
  | .float value => Binary64.isZero value

/-- A whole double that fits 64 bits as an integer, any other as it is. -/
def ofWhole (value : Float) : Number :=
  match (Binary64.whole? value).bind int64? with
  | some whole => .integer whole
  | none => .float value

/-- A number with the opposite sign; the least integer has none among the integers. -/
def negate : Number → Number
  | .integer value =>
    match int64? (-value.toInt) with
    | some opposite => .integer opposite
    | none => .float (-Binary64.ofInt value.toInt)
  | .float value => .float (-value)

/-- The result of an operator whose divisor, if it divides, is not zero. -/
def combine (op : Arithmetic) : Number → Number → Number
  | .integer a, .integer b =>
    match (op.onIntegers? a.toInt b.toInt).bind int64? with
    | some result => .integer result
    | none => ofWhole (op.onFloats (Binary64.ofInt a.toInt) (Binary64.ofInt b.toInt))
  | a, b => .float (op.onFloats a.toFloat b.toFloat)

/-- The result of an operator; there is none for a division by zero. -/
def operate? (op : Arithmetic) (a b : Number) : Option Number :=
  if op = .divide ∧ Binary64.isZero b.toFloat then none else some (combine op a b)

/-- The decimal digits of an integer behind its sign. -/
def decimalText (n : Int) : String :=
  String.ofList (Binary64.signed (decide (n < 0)) (Nat.toDigits 10 n.natAbs))

/-- The canonical text of a number. -/
def text : Number → String
  | .integer value => decimalText value.toInt
  | .float value => Binary64.canonicalText value

/-- The JSON text of a number. -/
def jsonText : Number → String
  | .integer value => decimalText value.toInt
  | .float value => Binary64.jsonText value

end Number

end ScalarExpr
