import ScalarExpr.Number.Binary64

/-!
# The fewest digits that read back

Every real in a certain interval around a double rounds to that double. The decimal written for it
is the shortest one in the interval and, among those of that length, the closest to the double; how
an exact tie between two of them goes is a choice of the format.

The search tries decimal grids from coarse to fine. On each grid only the two neighbours of the
double matter: if any point of a grid lies in the interval, so does one of these two.
-/

namespace ScalarExpr.Binary64

/-- The decimal `significand * 10 ^ exponent`. -/
structure Decimal where
  significand : Nat
  exponent : Int
  deriving DecidableEq, Repr

/-- Which of two equally close decimals is taken: the even one or the larger one. -/
inductive Tie
  | even
  | up
  deriving DecidableEq, Repr

/-- The reals that round to a double, in units of `2 ^ -1076`; both ends count if it is closed. -/
structure Basin where
  low : Nat
  centre : Nat
  high : Nat
  closed : Bool
  deriving Repr

/-- The basin of a positive double. Below a power of two the doubles lie twice as close. -/
def Basin.of (mantissa step : Nat) : Basin where
  low := (4 * mantissa - if mantissa = 2 ^ (52 : Nat) ∧ step ≠ 0 then 1 else 2) * 2 ^ step
  centre := 4 * mantissa * 2 ^ step
  high := (4 * mantissa + 2) * 2 ^ step
  closed := mantissa % 2 == 0

/-- Whether `num / den` units of `2 ^ -1076` lie in the basin. -/
def Basin.holds (basin : Basin) (num den : Nat) : Bool :=
  if basin.closed then basin.low * den ≤ num && num ≤ basin.high * den
  else basin.low * den < num && num < basin.high * den

/-- The multiple of `10 ^ exponent` nearest the centre of the basin, if one lies in the basin. -/
def Basin.onGrid? (basin : Basin) (tie : Tie) (exponent : Int) : Option Nat :=
  let den := 10 ^ (-exponent).toNat
  let grid := 10 ^ exponent.toNat * 2 ^ (1076 : Nat)
  let below := basin.centre * den / grid
  match basin.holds (below * grid) den, basin.holds ((below + 1) * grid) den with
  | false, false => none
  | true, false => some below
  | false, true => some (below + 1)
  | true, true =>
    match compare (2 * basin.centre * den) ((2 * below + 1) * grid) with
    | .lt => some below
    | .gt => some (below + 1)
    | .eq => some (if tie = .even ∧ below % 2 = 0 then below else below + 1)

/-- An exponent whose power of ten exceeds the centre of the basin. -/
def Basin.coarsest (basin : Basin) : Int :=
  ((basin.centre.log2 + 1 - 1076 : Int) * 30103) / 100000 + 1

/-- The shortest decimal that reads back as a positive double. Seventeen digits always suffice, so
one of the twenty grids has a hit. -/
def shortest (tie : Tie) (mantissa step : Nat) : Decimal :=
  let basin := Basin.of mantissa step
  let grids := (List.range 20).map fun (index : Nat) => basin.coarsest - (index : Int)
  let hit := grids.findSome? fun exponent =>
    (basin.onGrid? tie exponent).map fun significand => ⟨significand, exponent⟩
  hit.getD ⟨0, 0⟩

end ScalarExpr.Binary64
