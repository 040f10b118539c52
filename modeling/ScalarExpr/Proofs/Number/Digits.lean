import ScalarExpr.Number.Numeral
import Mathlib.Data.List.Basic

/-!
# Digits that are read back

The value of digits goes through runs of digits one behind the other. The digits of a number have
the number as their value, and start with a zero only if they are no more than this zero.
-/

namespace ScalarExpr.Numeral

/-- Characters that are all digits. -/
def AreDigits (text : List Char) : Prop := ∀ c ∈ text, c.isDigit

/-- No digit comes first. -/
def StartsNoDigit (text : List Char) : Prop := ∀ c ∈ text.head?, c.isDigit = false

/-- The digits of a number are digits. -/
theorem areDigits_toDigits (n : Nat) : AreDigits (Nat.toDigits 10 n) :=
  fun _ hc => Nat.isDigit_of_mem_toDigits (by decide) (by decide) hc

/-- Zeros are digits. -/
theorem areDigits_replicate (n : Nat) : AreDigits (List.replicate n '0') := by
  intro c hc
  rw [List.eq_of_mem_replicate hc]
  rfl

/-- Digits one behind the other are digits. -/
theorem AreDigits.append {front back : List Char} (hfront : AreDigits front)
    (hback : AreDigits back) : AreDigits (front ++ back) := by
  intro c hc
  rcases List.mem_append.mp hc with hc | hc
  · exact hfront c hc
  · exact hback c hc

/-- Some digits at the front and those behind them are digits. -/
theorem AreDigits.of_append {front back : List Char} (h : AreDigits (front ++ back)) :
    AreDigits front ∧ AreDigits back :=
  ⟨fun c hc => h c (List.mem_append_left back hc), fun c hc => h c (List.mem_append_right front hc)⟩

/-- The digits at the start of a text end where no digit follows. -/
theorem spanDigits_append {digits rest : List Char} (hdigits : AreDigits digits)
    (hrest : StartsNoDigit rest) : spanDigits (digits ++ rest) = (digits, rest) := by
  have htake : rest.takeWhile Char.isDigit = [] := by
    cases rest with
    | nil => rfl
    | cons c rest => rw [List.takeWhile_cons, hrest c rfl]; rfl
  have hdrop : rest.dropWhile Char.isDigit = rest := by
    cases rest with
    | nil => rfl
    | cons c rest => rw [List.dropWhile_cons, hrest c rfl]; rfl
  rw [spanDigits, List.takeWhile_append_of_pos hdigits, List.dropWhile_append_of_pos hdigits, htake,
    hdrop, List.append_nil]

/-- The value of a number's digits is the number. -/
@[simp] theorem digitsValue_toDigits (n : Nat) : digitsValue (Nat.toDigits 10 n) = n :=
  Nat.ofDigitChars_ten_toDigits

/-- Digits in front count for as many powers of ten as there are digits behind them. -/
theorem digitsValue_append (front back : List Char) :
    digitsValue (front ++ back) = digitsValue front * 10 ^ back.length + digitsValue back :=
  calc
    digitsValue (front ++ back) = Nat.ofDigitChars 10 back (digitsValue front) :=
      Nat.ofDigitChars_append 0
    _ = 10 ^ back.length * digitsValue front + digitsValue back :=
      Nat.ofDigitChars_eq_ofDigitChars_zero
    _ = digitsValue front * 10 ^ back.length + digitsValue back := by rw [Nat.mul_comm]

/-- Zeros have no value. -/
@[simp] theorem digitsValue_replicate (n : Nat) : digitsValue (List.replicate n '0') = 0 :=
  Nat.ofDigitChars_replicate_zero

/-- Zeros in front of digits do not count. -/
theorem digitsValue_replicate_append (n : Nat) (digits : List Char) :
    digitsValue (List.replicate n '0' ++ digits) = digitsValue digits := by
  rw [digitsValue_append, digitsValue_replicate, Nat.zero_mul, Nat.zero_add]

/-- Zeros behind digits count as powers of ten. -/
theorem digitsValue_append_replicate (n : Nat) (digits : List Char) :
    digitsValue (digits ++ List.replicate n '0') = digitsValue digits * 10 ^ n := by
  rw [digitsValue_append, digitsValue_replicate, List.length_replicate, Nat.add_zero]

/-- The digits of a number that is not zero do not start with a zero. -/
theorem head?_toDigits {n : Nat} (h : n ≠ 0) : (Nat.toDigits 10 n).head? ≠ some '0' := by
  induction n using Nat.strongRecOn with
  | ind n ih =>
    rw [Nat.toDigits_eq_if (by decide)]
    split
    · next hsmall =>
      have hall : ∀ n < 10, n ≠ 0 → [n.digitChar].head? ≠ some '0' := by decide
      exact hall n hsmall h
    · next hlarge =>
      rw [List.head?_append_of_ne_nil _ Nat.toDigits_ne_nil]
      exact ih (n / 10) (by omega) (by omega)

/-- A zero at the front of a number's digits stands alone. -/
theorem length_toDigits_of_zero {n : Nat} (h : (Nat.toDigits 10 n).head? = some '0') :
    (Nat.toDigits 10 n).length = 1 := by
  obtain rfl : n = 0 := by
    by_contra hne
    exact head?_toDigits hne h
  rfl

end ScalarExpr.Numeral
