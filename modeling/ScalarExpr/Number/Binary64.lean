import ScalarExpr.Number.Rounding

/-!
# Doubles as exact fractions

A finite double is a sign and a whole number of units of `2 ^ -1074`, written as a mantissa below
`2 ^ 53` shifted left by a step. On this view conversions to and from doubles are arithmetic on
natural numbers: each result is the exact value rounded once, to the nearest double, ties to the
even mantissa. Sums, products and quotients of doubles are the machine's own.

Payloads of NaN are not distinguished.
-/

namespace ScalarExpr.Binary64

-- With exponents that are marked as natural numbers, powers are the built-in ones wherever this module
-- is imported.
attribute [instance (high)] instPowNat

/-- What a double stands for; a finite one is `± mantissa * 2 ^ step` units of `2 ^ -1074`. -/
inductive Decoded
  | nan
  | infinity (negative : Bool)
  | finite (negative : Bool) (mantissa step : Nat)
  deriving DecidableEq, Repr

/-- The value that the bits of a double encode. -/
def decode (x : Float) : Decoded :=
  let bits := x.toBits.toNat
  let negative := decide (2 ^ (63 : Nat) ≤ bits)
  let biased := bits / 2 ^ (52 : Nat) % 2 ^ (11 : Nat)
  let fraction := bits % 2 ^ (52 : Nat)
  if biased = 2047 then
    if fraction = 0 then .infinity negative else .nan
  else if biased = 0 then .finite negative fraction 0
  else .finite negative (2 ^ (52 : Nat) + fraction) (biased - 1)

/-- The bits of positive infinity. -/
def infinityBits : Nat := 2047 * 2 ^ (52 : Nat)

/-- The bits of the double nearest the fraction `num / den`, without its sign.

The step is the least one that leaves a mantissa below `2 ^ 53`. A mantissa that rounds up to
`2 ^ 53` carries into the step, and a step past the last one gives infinity. -/
def magnitudeBits (num den : Nat) : Nat :=
  let scaled := num * 2 ^ (1074 : Nat)
  let coarse := num.log2 + 1021 - den.log2
  let step := if scaled < den * 2 ^ (coarse + 53) then coarse else coarse + 1
  min (step * 2 ^ (52 : Nat) + roundHalfEven scaled (den * 2 ^ step)) infinityBits

/-- The double with this sign and these magnitude bits. -/
def ofMagnitude (negative : Bool) (bits : Nat) : Float :=
  Float.ofBits (UInt64.ofNat (if negative then 2 ^ (63 : Nat) + bits else bits))

/-- The double nearest `± num / den`. -/
def nearest (negative : Bool) (num den : Nat) : Float :=
  ofMagnitude negative (if num = 0 then 0 else magnitudeBits num den)

/-- The double that stands for no number. -/
def nan : Float := Float.ofBits 0x7FF8000000000000

/-- The double nearest an integer. -/
def ofInt (n : Int) : Float := nearest (decide (n < 0)) n.natAbs 1

/-- The double nearest `± significand * 10 ^ exponent`.

The first two cases only spare the work for values far out of range: from `10 ^ 310` up every
decimal rounds to infinity, and below `10 ^ -330` every decimal rounds to zero. -/
def ofDecimal (negative : Bool) (significand : Nat) (exponent : Int) : Float :=
  if significand = 0 then ofMagnitude negative 0
  else if 310 ≤ exponent then ofMagnitude negative infinityBits
  else if exponent + significand.log2 + 1 < -330 then ofMagnitude negative 0
  else if 0 ≤ exponent then nearest negative (significand * 10 ^ exponent.toNat) 1
  else nearest negative significand (10 ^ (-exponent).toNat)

/-- Whether a double is zero, of either sign. -/
def isZero (x : Float) : Bool :=
  match decode x with
  | .finite _ mantissa _ => mantissa == 0
  | _ => false

/-- The integer that a double is equal to, if it is one. -/
def whole? (x : Float) : Option Int :=
  match decode x with
  | .finite negative mantissa step =>
    let units := mantissa * 2 ^ step
    if units % 2 ^ (1074 : Nat) = 0 then
      some (if negative then -(units / 2 ^ (1074 : Nat) : Nat) else (units / 2 ^ (1074 : Nat) : Nat))
    else none
  | _ => none

/-- The remainder of the division that truncates its quotient: exact, with the sign of the dividend.

It is no number if the divisor is zero or the dividend infinite, and the dividend itself if only
the divisor is infinite. -/
def remainder (x y : Float) : Float :=
  match decode x, decode y with
  | .nan, _ => nan
  | _, .nan => nan
  | .infinity _, _ => nan
  | .finite .., .infinity _ => x
  | .finite negative mantissa step, .finite _ mantissa' step' =>
    if mantissa' = 0 then nan
    else nearest negative (mantissa * 2 ^ step % (mantissa' * 2 ^ step')) (2 ^ (1074 : Nat))

end ScalarExpr.Binary64
