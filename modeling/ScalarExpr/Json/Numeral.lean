import ScalarExpr.Json.Quoted
import ScalarExpr.Number

/-!
# Numbers in JSON

A whole number that fits 64 bits is an integer; minus zero is a double. Any other number is read as
a significand of at most 64 bits and a power of ten, and is the product or the quotient of the
doubles nearest these two. Digits that no longer fit the significand are not read: before the point
they count as zeros, and behind it they are dropped.

So the double is the nearest one as long as the significand is below `2 ^ 53` and the power of ten at
most `10 ^ 22`, and may be a neighbour of the nearest one otherwise. A number whose double is infinite
is refused, and one that is too small is zero.
-/

namespace ScalarExpr.Json

/-- The double nearest a power of ten. -/
def powerOfTen (exponent : Nat) : Float := Binary64.ofDecimal false 1 exponent

/-- A double times a power of ten, unless the result is infinite.

Powers past `10 ^ 308` are no doubles: only zero may be multiplied by one, and a division by one is
done in several steps. -/
def scale? (value : Float) (exponent : Int) : Option Float :=
  if 308 < exponent then
    if Binary64.isZero value then some value else none
  else if 0 ≤ exponent then
    let product := value * powerOfTen exponent.toNat
    if product.isInf then none else some product
  else if -308 ≤ exponent then some (value / powerOfTen (-exponent).toNat)
  else if Binary64.isZero value then some value
  else scale? (value / powerOfTen 308) (exponent + 308)
termination_by (-exponent).toNat
decreasing_by omega

/-- The digits of a significand, as far as they fit 64 bits, and how many of them do not. -/
def absorb (significand : Nat) : List Char → Nat × Nat
  | [] => (significand, 0)
  | digit :: digits =>
    let longer := 10 * significand + (digit.toNat - '0'.toNat)
    if longer < 2 ^ (64 : Nat) then absorb longer digits else (significand, digits.length + 1)

/-- The number with these digits before and behind its point and this exponent. A number is written
whole if it has neither a point nor an exponent. -/
def assemble? (negative : Bool) (whole fraction : List Char) (exponent : Int) (isWhole : Bool) :
    Option Number :=
  let (significand, skipped) := absorb 0 whole
  let value : Int := if negative then -(significand : Int) else (significand : Int)
  match if isWhole ∧ skipped = 0 ∧ ¬ (negative ∧ significand = 0) then int64? value else none with
  | some integer => some (.integer integer)
  | none =>
    let (significand, dropped) := absorb significand fraction
    let power := exponent + skipped - (fraction.length - dropped : Nat)
    (scale? (Binary64.ofInt significand) power).map fun magnitude =>
      .float (if negative then -magnitude else magnitude)

/-- What follows the mark of an exponent: a sign that may be absent, and digits. -/
def readPower? (text : List Char) : Option (Int × List Char) :=
  let (negative, unsigned) := Numeral.splitSign text
  let (digits, rest) := Numeral.spanDigits unsigned
  if digits = [] then none
  else
    let value : Int := Numeral.digitsValue digits
    some (if negative then -value else value, rest)

/-- The digits behind a point, where there is one; at least one digit has to follow it. -/
def readFraction? : List Char → Option (Option (List Char) × List Char)
  | '.' :: after =>
    let (digits, rest) := Numeral.spanDigits after
    if digits = [] then none else some (some digits, rest)
  | text => some (none, text)

/-- The exponent, where there is one. -/
def readExponent? : List Char → Option (Option Int × List Char)
  | [] => some (none, [])
  | mark :: after =>
    if mark = 'e' ∨ mark = 'E' then
      match readPower? after with
      | some (value, rest) => some (some value, rest)
      | none => none
    else some (none, mark :: after)

/-- A minus sign at the start of a text, as whether there is one, and what follows it. -/
def splitMinus : List Char → Bool × List Char
  | '-' :: rest => (true, rest)
  | text => (false, text)

/-- A number at the start of a text, and what follows it. A leading zero stands alone before the
point, and digits stand on both sides of a point. -/
def readNumber? (text : List Char) : Option (Number × List Char) :=
  let (negative, unsigned) := splitMinus text
  let (whole, afterWhole) := Numeral.spanDigits unsigned
  if whole = [] ∨ (whole.head? = some '0' ∧ whole.length ≠ 1) then none
  else
    match readFraction? afterWhole with
    | none => none
    | some (fraction, afterFraction) =>
      match readExponent? afterFraction with
      | none => none
      | some (exponent, rest) =>
        let isWhole := fraction.isNone && exponent.isNone
        (assemble? negative whole (fraction.getD []) (exponent.getD 0) isWhole).map (·, rest)

/-- The digits at the start of a text and what follows them are together the text. -/
theorem length_spanDigits (text : List Char) :
    (Numeral.spanDigits text).1.length + (Numeral.spanDigits text).2.length = text.length := by
  rw [← List.length_append]
  simp [Numeral.spanDigits, List.takeWhile_append_dropWhile]

/-- A fraction takes characters away. -/
theorem length_readFraction {text rest : List Char} {fraction : Option (List Char)}
    (h : readFraction? text = some (fraction, rest)) : rest.length ≤ text.length := by
  unfold readFraction? at h
  split at h
  · rename_i after
    dsimp only at h
    split at h
    · cases h
    · cases h
      have := length_spanDigits after
      simp only [List.length_cons]
      omega
  · cases h
    exact Nat.le_refl _

/-- A sign takes characters away. -/
theorem length_splitSign (text : List Char) : (Numeral.splitSign text).2.length ≤ text.length := by
  unfold Numeral.splitSign
  split <;> simp

/-- A minus sign takes a character away. -/
theorem length_splitMinus (text : List Char) : (splitMinus text).2.length ≤ text.length := by
  unfold splitMinus
  split <;> simp

/-- An exponent takes characters away. -/
theorem length_readExponent {text rest : List Char} {exponent : Option Int}
    (h : readExponent? text = some (exponent, rest)) : rest.length ≤ text.length := by
  unfold readExponent? at h
  split at h
  · cases h; exact Nat.le_refl _
  · rename_i mark after
    split at h
    · unfold readPower? at h
      dsimp only at h
      have hsign := length_splitSign after
      have hspan := length_spanDigits (Numeral.splitSign after).2
      by_cases hempty : (Numeral.spanDigits (Numeral.splitSign after).2).1 = []
      · rw [if_pos hempty] at h; cases h
      · rw [if_neg hempty] at h
        cases h
        simp only [List.length_cons]
        omega
    · cases h; exact Nat.le_refl _

/-- A number takes characters away. -/
theorem length_readNumber {text rest : List Char} {value : Number}
    (h : readNumber? text = some (value, rest)) : rest.length < text.length := by
  unfold readNumber? at h
  dsimp only at h
  split at h
  · cases h
  · rename_i hwhole
    split at h
    · cases h
    · rename_i fraction afterFraction hfraction
      split at h
      · cases h
      · rename_i exponent after hexponent
        obtain ⟨number, _, heq⟩ := Option.map_eq_some_iff.mp h
        cases heq
        have h1 := length_readExponent hexponent
        have h2 := length_readFraction hfraction
        have h3 := length_spanDigits (splitMinus text).2
        have h4 := length_splitMinus text
        have h5 := List.length_pos_iff.mpr fun hnil => hwhole (.inl hnil)
        omega

end ScalarExpr.Json
