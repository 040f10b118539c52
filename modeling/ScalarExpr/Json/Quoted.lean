/-!
# Strings in JSON

A string is written between quotes with quotes, backslashes and control characters escaped, and is
read with all escapes of JSON. Code points above `0xFFFF` may be escaped as two surrogates; a
surrogate without its partner is refused.
-/

namespace ScalarExpr.Json

/-- The digit for a number below sixteen. -/
def hexDigit (n : Nat) : Char := Nat.digitChar n

/-- A character as it stands between quotes. -/
def escape (c : Char) : List Char :=
  if c = '"' then ['\\', '"']
  else if c = '\\' then ['\\', '\\']
  else if c.toNat < 0x20 then
    if c.toNat = 0x08 then ['\\', 'b']
    else if c.toNat = 0x09 then ['\\', 't']
    else if c.toNat = 0x0A then ['\\', 'n']
    else if c.toNat = 0x0C then ['\\', 'f']
    else if c.toNat = 0x0D then ['\\', 'r']
    else ['\\', 'u', '0', '0', hexDigit (c.toNat / 16), hexDigit (c.toNat % 16)]
  else [c]

/-- A string in quotes. -/
def quote (text : String) : String :=
  String.ofList ('"' :: (text.toList.flatMap escape ++ ['"']))

/-- What is left of a text after something has been read from it. -/
abbrev Remainder (text : List Char) := { rest : List Char // rest.length < text.length }

/-- What is left after one more reading. -/
def Remainder.after {text : List Char} (first : Remainder text) (second : Remainder first.val) :
    Remainder text :=
  ⟨second.val, Nat.lt_trans second.property first.property⟩

/-- The value of a hexadecimal digit. -/
def hexValue? (c : Char) : Option Nat :=
  if c.isDigit then some (c.toNat - '0'.toNat)
  else if 'a' ≤ c ∧ c ≤ 'f' then some (c.toNat - 'a'.toNat + 10)
  else if 'A' ≤ c ∧ c ≤ 'F' then some (c.toNat - 'A'.toNat + 10)
  else none

/-- Four hexadecimal digits. -/
def readUnit? : (text : List Char) → Option (Nat × Remainder text)
  | a :: b :: c :: d :: rest =>
    match hexValue? a, hexValue? b, hexValue? c, hexValue? d with
    | some a, some b, some c, some d =>
      some (((a * 16 + b) * 16 + c) * 16 + d, ⟨rest, by simp only [List.length_cons]; omega⟩)
    | _, _, _, _ => none
  | _ => none

/-- What follows `\u`: a code point, or the first of two surrogates with the second. -/
def readCodePoint? (text : List Char) : Option (Char × Remainder text) :=
  match readUnit? text with
  | none => none
  | some (high, afterHigh) =>
    if 0xD800 ≤ high ∧ high < 0xDC00 then
      match hrest : afterHigh.val with
      | '\\' :: 'u' :: rest =>
        match readUnit? rest with
        | none => none
        | some (low, afterLow) =>
          if 0xDC00 ≤ low ∧ low < 0xE000 then
            have := afterLow.property
            have := afterHigh.property
            some (Char.ofNat (0x10000 + (high - 0xD800) * 0x400 + (low - 0xDC00)),
              ⟨afterLow.val, by rw [hrest] at this; simp only [List.length_cons] at this; omega⟩)
          else none
      | _ => none
    else if 0xDC00 ≤ high ∧ high < 0xE000 then none
    else some (Char.ofNat high, afterHigh)

/-- What follows a backslash. -/
def readEscape? : (text : List Char) → Option (Char × Remainder text)
  | [] => none
  | c :: rest =>
    let one : Remainder (c :: rest) := ⟨rest, by simp⟩
    match c with
    | '"' => some ('"', one)
    | '\\' => some ('\\', one)
    | '/' => some ('/', one)
    | 'b' => some (Char.ofNat 0x08, one)
    | 't' => some (Char.ofNat 0x09, one)
    | 'n' => some (Char.ofNat 0x0A, one)
    | 'f' => some (Char.ofNat 0x0C, one)
    | 'r' => some (Char.ofNat 0x0D, one)
    | 'u' => (readCodePoint? rest).map fun (point, after) => (point, one.after after)
    | _ => none

/-- The characters up to the closing quote. -/
def readString? (text : List Char) : Option (List Char × Remainder text) :=
  match text with
  | [] => none
  | c :: rest =>
    let one : Remainder (c :: rest) := ⟨rest, by simp⟩
    if c = '"' then some ([], one)
    else if c.toNat < 0x20 then none
    else if c = '\\' then
      match readEscape? rest with
      | none => none
      | some (escaped, after) =>
        (readString? after.val).map fun (chars, last) =>
          (escaped :: chars, (one.after after).after last)
    else (readString? rest).map fun (chars, last) => (c :: chars, one.after last)
termination_by text.length
decreasing_by
  · exact Nat.lt_trans after.property (Nat.lt_succ_self rest.length)
  · exact Nat.lt_succ_self rest.length

end ScalarExpr.Json
