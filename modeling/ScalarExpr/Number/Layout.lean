import ScalarExpr.Number.Shortest

/-!
# Writing doubles

A layout says where positional notation ends and how an exponent is marked. Within it the digits
are the shortest that read back, and a whole positional number keeps one digit after its point.
-/

namespace ScalarExpr.Binary64

/-- How a format lays out the digits of a double. -/
structure Layout where
  /-- The least decimal exponent that is written positionally. -/
  least : Int
  /-- The least decimal exponent above those that are written positionally. -/
  bound : Int
  /-- The mark before an exponent. -/
  mark : Char
  /-- Whether a positive exponent has a sign. -/
  plus : Bool
  /-- Whether a single digit before an exponent is followed by a point and a zero. -/
  padded : Bool
  /-- The choice between two equally close decimals. -/
  tie : Tie

/-- Digits whose first one stands for `10 ^ leading`, around a point. -/
def positional (digits : List Char) (leading : Int) : List Char :=
  if leading < 0 then '0' :: '.' :: (List.replicate (-leading - 1).toNat '0' ++ digits)
  else
    let whole := leading.toNat + 1
    let fraction := digits.drop whole
    digits.take whole ++ List.replicate (whole - digits.length) '0' ++
      '.' :: (if fraction = [] then ['0'] else fraction)

/-- The digits of a decimal exponent with its sign. -/
def exponentDigits (plus : Bool) (exponent : Int) : List Char :=
  if exponent < 0 then '-' :: Nat.toDigits 10 exponent.natAbs
  else if plus then '+' :: Nat.toDigits 10 exponent.natAbs
  else Nat.toDigits 10 exponent.natAbs

/-- Digits with a point after the first, and an exponent. -/
def Layout.scientific (layout : Layout) (digits : List Char) (leading : Int) : List Char :=
  let fraction := digits.drop 1
  let mantissa :=
    if fraction = [] then digits ++ (if layout.padded then ['.', '0'] else [])
    else digits.take 1 ++ '.' :: fraction
  mantissa ++ layout.mark :: exponentDigits layout.plus leading

/-- The text of a finite double without its sign. -/
def Layout.magnitude (layout : Layout) (mantissa step : Nat) : List Char :=
  if mantissa = 0 then ['0', '.', '0']
  else
    let decimal := shortest layout.tie mantissa step
    let digits := Nat.toDigits 10 decimal.significand
    let leading := decimal.exponent + digits.length - 1
    if layout.least ≤ leading ∧ leading < layout.bound then positional digits leading
    else layout.scientific digits leading

/-- A text behind its sign. -/
def signed (negative : Bool) (text : List Char) : List Char :=
  if negative then '-' :: text else text

/-- Canonical text is positional from `10 ^ -3` up to below `10 ^ 7`, and writes `1.0E7` otherwise. -/
def canonicalLayout : Layout where
  least := -3
  bound := 7
  mark := 'E'
  plus := false
  padded := true
  tie := .up

/-- JSON text is positional from `10 ^ -5` up to below `10 ^ 16`, and writes `1e+16` otherwise. -/
def jsonLayout : Layout where
  least := -5
  bound := 16
  mark := 'e'
  plus := true
  padded := false
  tie := .even

/-- The canonical text of a double. -/
def canonicalText (x : Float) : String :=
  match decode x with
  | .nan => "NaN"
  | .infinity negative => String.ofList (signed negative "Infinity".toList)
  | .finite negative mantissa step =>
    String.ofList (signed negative (canonicalLayout.magnitude mantissa step))

/-- The JSON text of a double; JSON has no number for NaN and the infinities. -/
def jsonText (x : Float) : String :=
  match decode x with
  | .finite negative mantissa step =>
    String.ofList (signed negative (jsonLayout.magnitude mantissa step))
  | _ => "null"

end ScalarExpr.Binary64
