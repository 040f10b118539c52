/-!
# Rounding a quotient

The natural number nearest a quotient, with the even one at a tie. Both the reading of decimals and
the conversion of integers to doubles round once, by this rule.
-/

namespace ScalarExpr

/-- The natural number nearest `num / den`; a half goes to the even neighbour. -/
def roundHalfEven (num den : Nat) : Nat :=
  let quotient := num / den
  let rest := num % den
  if 2 * rest < den ∨ (2 * rest = den ∧ quotient % 2 = 0) then quotient else quotient + 1

/-- The rounded quotient is at most half a unit away. -/
theorem roundHalfEven_near (num den : Nat) (h : 0 < den) :
    2 * num ≤ (2 * roundHalfEven num den + 1) * den ∧
      2 * roundHalfEven num den * den ≤ 2 * num + den := by
  have hdiv := Nat.div_add_mod num den
  have hmod := Nat.mod_lt num h
  have hcomm : den * (num / den) = num / den * den := Nat.mul_comm ..
  have hsucc : 2 * (num / den + 1) * den = 2 * (num / den * den) + 2 * den := by
    rw [Nat.mul_assoc, Nat.add_mul, Nat.mul_add, Nat.one_mul]
  have hodd : (2 * (num / den) + 1) * den = 2 * (num / den * den) + den := by
    rw [Nat.add_mul, Nat.mul_assoc, Nat.one_mul]
  have hodd' : (2 * (num / den + 1) + 1) * den = 2 * (num / den * den) + 3 * den := by
    rw [Nat.add_mul, hsucc, Nat.one_mul]; omega
  unfold roundHalfEven
  dsimp only
  split
  · rw [Nat.mul_assoc 2 (num / den), hodd]; omega
  · rename_i hr
    rw [hsucc, hodd']
    omega

/-- An exact quotient is kept. -/
theorem roundHalfEven_mul (n den : Nat) (h : 0 < den) : roundHalfEven (n * den) den = n := by
  simp [roundHalfEven, Nat.mul_div_cancel n h, Nat.mul_mod_left, h]

end ScalarExpr
