import ScalarExpr.Json.Quoted
import Mathlib.Tactic.SplitIfs

/-!
# Strings survive quoting

Between quotes a character stands for itself, or a code behind a backslash stands for it: a letter,
the four hexadecimal digits of its code point, or those of its two surrogates. Whatever is written
so is read to its characters, whatever follows the closing quote. What is written for a string is
one such text, and so every string that is quoted is read back.
-/

namespace ScalarExpr.Json

/-- A reading gives a value and leaves this of the text. -/
def Leaves {α : Type} {text : List Char} (result : Option (α × Remainder text)) (value : α)
    (rest : List Char) : Prop :=
  ∃ after : Remainder text, result = some (value, after) ∧ after.val = rest

/-- A hexadecimal digit, in one of its two cases. -/
def IsHexDigit (n : Nat) (c : Char) : Prop := n < 16 ∧ (c = hexDigit n ∨ c = (hexDigit n).toUpper)

/-- Four hexadecimal digits. -/
inductive SpellsUnit : Nat → List Char → Prop
  | of {a b c d : Nat} {w x y z : Char} :
    IsHexDigit a w → IsHexDigit b x → IsHexDigit c y → IsHexDigit d z →
    SpellsUnit (((a * 16 + b) * 16 + c) * 16 + d) [w, x, y, z]

/-- The letters behind a backslash, with the code points that they stand for. -/
def letterPoints : List (Char × Nat) :=
  [('"', 0x22), ('\\', 0x5C), ('/', 0x2F), ('b', 0x08), ('t', 0x09), ('n', 0x0A), ('f', 0x0C),
    ('r', 0x0D)]

/-- What follows a backslash to stand for a character. A code point that is no surrogate is written
as it is, and one above `0xFFFF` as its two surrogates. -/
inductive SpellsEscape (c : Char) : List Char → Prop
  | letter {letter : Char} : (letter, c.toNat) ∈ letterPoints → SpellsEscape c [letter]
  | point {code : List Char} : SpellsUnit c.toNat code → SpellsEscape c ('u' :: code)
  | surrogates {high low : Nat} {front back : List Char} :
    0xD800 ≤ high ∧ high < 0xDC00 → 0xDC00 ≤ low ∧ low < 0xE000 →
    c.toNat = 0x10000 + (high - 0xD800) * 0x400 + (low - 0xDC00) →
    SpellsUnit high front → SpellsUnit low back →
    SpellsEscape c ('u' :: (front ++ '\\' :: 'u' :: back))

/-- What stands between quotes for these characters. -/
inductive SpellsString : List Char → List Char → Prop
  | nil : SpellsString [] []
  | plain {c : Char} {chars text : List Char} :
    c ≠ '"' → c ≠ '\\' → ¬ c.toNat < 0x20 → SpellsString chars text →
    SpellsString (c :: chars) (c :: text)
  | escaped {c : Char} {code chars text : List Char} :
    SpellsEscape c code → SpellsString chars text →
    SpellsString (c :: chars) ('\\' :: (code ++ text))

section

variable {text middle rest : List Char} {c : Char} {chars : List Char}

/-- A hexadecimal digit has the value that it is written for. -/
theorem hexValue?_of_isHexDigit {n : Nat} (h : IsHexDigit n c) : hexValue? c = some n := by
  have hall : ∀ n < 16,
      hexValue? (hexDigit n) = some n ∧ hexValue? (hexDigit n).toUpper = some n := by
    decide
  obtain ⟨hn, rfl | rfl⟩ := h
  · exact (hall n hn).1
  · exact (hall n hn).2

/-- Four hexadecimal digits are read. -/
theorem SpellsUnit.leaves_readUnit? {n : Nat} {code : List Char} (h : SpellsUnit n code)
    (rest : List Char) : Leaves (readUnit? (code ++ rest)) n rest := by
  obtain ⟨hw, hx, hy, hz⟩ := h
  refine ⟨⟨rest, by simp only [List.length_append, List.length_cons]; omega⟩, ?_, rfl⟩
  simp only [List.cons_append, List.nil_append, readUnit?, hexValue?_of_isHexDigit hw,
    hexValue?_of_isHexDigit hx, hexValue?_of_isHexDigit hy, hexValue?_of_isHexDigit hz]

/-- The code point of a character is no surrogate. -/
theorem toNat_not_surrogate (c : Char) : ¬ (0xD800 ≤ c.toNat ∧ c.toNat < 0xE000) := by
  rcases c.valid with hlow | ⟨hhigh, -⟩
  · exact fun h => absurd h.1 (Nat.not_le.mpr hlow)
  · exact fun h => absurd h.2 (Nat.not_lt.mpr (Nat.le_of_lt_succ (Nat.succ_lt_succ hhigh)))

/-- A code point is read from its digits. -/
theorem SpellsUnit.leaves_readCodePoint? {code : List Char} (h : SpellsUnit c.toNat code)
    (rest : List Char) : Leaves (readCodePoint? (code ++ rest)) c rest := by
  obtain ⟨after, hafter, hrest⟩ := h.leaves_readUnit? rest
  have hpoint := toNat_not_surrogate c
  rw [readCodePoint?, hafter]
  simp only
  rw [if_neg (by omega), if_neg (by omega), Char.ofNat_toNat]
  exact ⟨after, rfl, hrest⟩

/-- A code point is read from its surrogates. -/
theorem leaves_readCodePoint?_surrogates {high low : Nat} {front back : List Char}
    (hhigh : 0xD800 ≤ high ∧ high < 0xDC00) (hlow : 0xDC00 ≤ low ∧ low < 0xE000)
    (hpoint : c.toNat = 0x10000 + (high - 0xD800) * 0x400 + (low - 0xDC00))
    (hfront : SpellsUnit high front) (hback : SpellsUnit low back) (rest : List Char) :
    Leaves (readCodePoint? (front ++ '\\' :: 'u' :: (back ++ rest))) c rest := by
  obtain ⟨afterHigh, hafterHigh, hmiddle⟩ := hfront.leaves_readUnit? ('\\' :: 'u' :: (back ++ rest))
  rw [readCodePoint?, hafterHigh]
  simp only [if_pos hhigh]
  split
  · next middle hval =>
    obtain rfl : middle = back ++ rest := by
      rw [hmiddle] at hval
      injection hval with _ hval
      injection hval with _ hval
      exact hval.symm
    obtain ⟨afterLow, hafterLow, hrest⟩ := hback.leaves_readUnit? rest
    simp only [hafterLow, if_pos hlow, ← hpoint, Char.ofNat_toNat]
    exact ⟨_, rfl, hrest⟩
  · next hother => exact absurd hmiddle (hother _)

/-- What stands for a character behind a backslash is read to it. -/
theorem SpellsEscape.leaves_readEscape? {code : List Char} (h : SpellsEscape c code)
    (rest : List Char) : Leaves (readEscape? (code ++ rest)) c rest := by
  cases h with
  | @letter letter h =>
    have hchar {point : Nat} (hpoint : c.toNat = point) : c = Char.ofNat point := by
      rw [← hpoint, Char.ofNat_toNat]
    simp only [letterPoints, List.mem_cons, List.not_mem_nil, or_false, Prod.mk.injEq] at h
    rcases h with ⟨rfl, h⟩ | ⟨rfl, h⟩ | ⟨rfl, h⟩ | ⟨rfl, h⟩ | ⟨rfl, h⟩ | ⟨rfl, h⟩ | ⟨rfl, h⟩ |
      ⟨rfl, h⟩ <;>
    · rw [hchar h]
      exact ⟨_, rfl, rfl⟩
  | point h =>
    obtain ⟨after, hafter, hrest⟩ := h.leaves_readCodePoint? rest
    exact ⟨_, congrArg (Option.map _) hafter, hrest⟩
  | surrogates hhigh hlow hpoint hfront hback =>
    obtain ⟨after, hafter, hrest⟩ :=
      leaves_readCodePoint?_surrogates hhigh hlow hpoint hfront hback rest
    rw [List.cons_append, List.append_assoc, List.cons_append, List.cons_append]
    exact ⟨_, congrArg (Option.map _) hafter, hrest⟩

/-- The closing quote ends a string. -/
theorem leaves_readString?_quote : Leaves (readString? ('"' :: rest)) [] rest := by
  rw [readString?]
  exact ⟨_, if_pos rfl, rfl⟩

/-- A character that needs no escape stands for itself. -/
theorem Leaves.readString?_plain (h : Leaves (readString? text) chars rest) (hquote : c ≠ '"')
    (hslash : c ≠ '\\') (hcontrol : ¬ c.toNat < 0x20) :
    Leaves (readString? (c :: text)) (c :: chars) rest := by
  obtain ⟨after, hafter, rfl⟩ := h
  rw [readString?, if_neg hquote, if_neg hcontrol, if_neg hslash, hafter]
  exact ⟨_, rfl, rfl⟩

/-- What an escape stands for comes before the characters behind it. -/
theorem Leaves.readString?_escaped (h : Leaves (readString? middle) chars rest)
    (hescape : Leaves (readEscape? text) c middle) :
    Leaves (readString? ('\\' :: text)) (c :: chars) rest := by
  obtain ⟨afterEscape, hescape, rfl⟩ := hescape
  obtain ⟨after, hafter, rfl⟩ := h
  rw [readString?, if_neg (by decide), if_neg (by decide), if_pos rfl, hescape]
  exact ⟨_, congrArg (Option.map _) hafter, rfl⟩

/-- The characters of a string are read up to its closing quote. -/
theorem SpellsString.leaves_readString? (h : SpellsString chars text) (rest : List Char) :
    Leaves (readString? (text ++ '"' :: rest)) chars rest := by
  induction h with
  | nil => exact leaves_readString?_quote
  | plain hquote hslash hcontrol _ ih => exact ih.readString?_plain hquote hslash hcontrol
  | escaped hcode _ ih =>
    rw [List.cons_append, List.append_assoc]
    exact ih.readString?_escaped (hcode.leaves_readEscape? _)

/-- A control character without a letter of its own is written with its code point. -/
theorem spellsEscape_codePoint (h : c.toNat < 0x20) :
    SpellsEscape c ['u', '0', '0', hexDigit (c.toNat / 16), hexDigit (c.toNat % 16)] := by
  have hzero : IsHexDigit 0 '0' := ⟨by decide, .inl rfl⟩
  have hunit := SpellsUnit.of hzero hzero ⟨(by omega : c.toNat / 16 < 16), .inl rfl⟩
    ⟨Nat.mod_lt c.toNat (by decide : 16 > 0), .inl rfl⟩
  have hpoint : ((0 * 16 + 0) * 16 + c.toNat / 16) * 16 + c.toNat % 16 = c.toNat := by omega
  rw [hpoint] at hunit
  exact .point hunit

/-- What is written for a character stands for it. -/
theorem SpellsString.escape_append (h : SpellsString chars text) (c : Char) :
    SpellsString (c :: chars) (escape c ++ text) := by
  have hletter {letter : Char} {point : Nat} (hpoint : c.toNat = point)
      (hmem : (letter, point) ∈ letterPoints) :
      SpellsString (c :: chars) (['\\', letter] ++ text) :=
    .escaped (.letter (hpoint ▸ hmem)) h
  unfold escape
  split_ifs with hquote hslash hcontrol hback htab hline hform hreturn
  · exact hletter (congrArg Char.toNat hquote) (by decide)
  · exact hletter (congrArg Char.toNat hslash) (by decide)
  · exact hletter hback (by decide)
  · exact hletter htab (by decide)
  · exact hletter hline (by decide)
  · exact hletter hform (by decide)
  · exact hletter hreturn (by decide)
  · exact .escaped (spellsEscape_codePoint hcontrol) h
  · exact .plain hquote hslash hcontrol h

/-- What is written for the characters of a string stands for them. -/
theorem spellsString_escape (chars : List Char) : SpellsString chars (chars.flatMap escape) := by
  induction chars with
  | nil => exact .nil
  | cons c chars ih => exact ih.escape_append c

end

end ScalarExpr.Json
