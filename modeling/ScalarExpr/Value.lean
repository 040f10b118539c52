import ScalarExpr.Number

/-!
# Values

What an expression evaluates to. Every value has a truth and a canonical text; two values of which
one is no number are equal if their canonical texts are.
-/

namespace ScalarExpr

/-- The kinds of values. -/
inductive ValueKind
  | null
  | boolean
  | integer
  | float
  | string
  deriving DecidableEq, Repr

/-- The name of a kind. -/
def ValueKind.name : ValueKind → String
  | .null => "null"
  | .boolean => "boolean"
  | .integer => "integer"
  | .float => "float"
  | .string => "string"

/-- A scalar. Null comes only from variables. -/
inductive Value
  | null
  | boolean (value : Bool)
  | number (value : Number)
  | string (value : String)
  deriving DecidableEq

namespace Value

/-- The kind of a value. -/
def kind : Value → ValueKind
  | null => .null
  | boolean _ => .boolean
  | number (.integer _) => .integer
  | number (.float _) => .float
  | string _ => .string

/-- Numbers are true unless they are zero, strings unless they are empty, and null never is. -/
def isTruthy : Value → Bool
  | null => false
  | boolean value => value
  | number value => !value.isZero
  | string value => !value.toList.isEmpty

/-- The number that a value is, if it is one. -/
def number? : Value → Option Number
  | number value => some value
  | _ => none

/-- Whether a value is a number. -/
def isNumeric (value : Value) : Bool := value.number?.isSome

/-- A numeric value is a number. -/
theorem exists_number_of_isNumeric {value : Value} (h : value.isNumeric = true) :
    ∃ n, value = number n := by
  cases value with
  | number n => exact ⟨n, rfl⟩
  | null | boolean | string => cases h

/-- Two values are numbers, or one of them is none. -/
theorem numbers_or_other (a b : Value) : (∃ m n, a = number m ∧ b = number n) ∨
    (a.isNumeric = false ∨ b.isNumeric = false) := by
  cases ha : a.isNumeric with
  | false => exact .inr (.inl rfl)
  | true =>
    cases hb : b.isNumeric with
    | false => exact .inr (.inr rfl)
    | true =>
      obtain ⟨m, rfl⟩ := exists_number_of_isNumeric ha
      obtain ⟨n, rfl⟩ := exists_number_of_isNumeric hb
      exact .inl ⟨m, n, rfl, rfl⟩

/-- The double nearest a value that is a number. -/
def float? (value : Value) : Option Float := value.number?.map Number.toFloat

/-- The text that a value contributes to a string. -/
def text : Value → String
  | null => "null"
  | boolean true => "true"
  | boolean false => "false"
  | number value => value.text
  | string value => value

/-- Two numbers are equal if their doubles are, other values if their texts are. -/
def looselyEqual (a b : Value) : Bool :=
  match a.number?, b.number? with
  | some m, some n => m.toFloat == n.toFloat
  | _, _ => a.text == b.text

end Value

end ScalarExpr
