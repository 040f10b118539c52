import ScalarExpr.Token
import ScalarExpr.Text.Alphabetic
import ScalarExpr.Text.Blank
import ScalarExpr.Text.Numeric

/-!
# Reading tokens from a text

A scanner holds the characters that are left, how many came before them, and whether the end of
input has been reported. Each step skips blanks and reads one token; the longest one wins wherever a
shorter one would also do. A step that fails says where the scanner stands afterwards, so that
reading can go on: an unterminated string uses up the text, any other fault is met again at once.

Strings hold their characters as they are, without escapes. Numerals have ASCII digits and at most
one point.
-/

namespace ScalarExpr

open Text

/-- Why no token could be read. -/
inductive LexError
  | unterminatedString (offset : Nat)
  | unexpectedSymbol (symbol : Char) (offset : Nat)
  | malformedNumber (offset : Nat)
  deriving DecidableEq, Repr

namespace LexError

/-- The character that the error is about: the opening quote, the symbol, the second point. -/
def offset : LexError → Nat
  | unterminatedString offset => offset
  | unexpectedSymbol _ offset => offset
  | malformedNumber offset => offset

/-- The text of the error. -/
def message : LexError → String
  | unterminatedString _ => "Unterminated string literal"
  | unexpectedSymbol symbol _ => "Unexpected symbol: " ++ String.singleton symbol
  | malformedNumber _ => "Malformed number literal: unexpected second '.'"

end LexError

/-- Whether a character may start an identifier. -/
def startsName (c : Char) : Bool := isAlphabetic c || c == '_'

/-- Whether a character may stand in an identifier after the first. -/
def continuesName (c : Char) : Bool := isAlphabetic c || isNumeric c || c == '_'

/-- The kind of a symbol of two characters. -/
def pairKind? : Char → Char → Option TokenKind
  | '!', '=' => some .notEqual
  | '>', '=' => some .greaterEqual
  | '<', '=' => some .lessEqual
  | '=', '=' => some .equal
  | '&', '&' => some .and
  | '|', '|' => some .or
  | _, _ => none

/-- The kind of a symbol of one character. -/
def symbolKind? : Char → Option TokenKind
  | '+' => some .plus
  | '-' => some .minus
  | '*' => some .star
  | '/' => some .slash
  | '%' => some .percent
  | '(' => some .leftParen
  | ')' => some .rightParen
  | '?' => some .question
  | ':' => some .colon
  | '!' => some .not
  | '>' => some .greater
  | '<' => some .less
  | _ => none

/-- What stands at the start of a text that does not start with a blank. -/
inductive Reading
  /-- A token, as the characters it takes and those after it. -/
  | token (kind : TokenKind) (taken rest : List Char)
  /-- A string without an end. -/
  | unterminated
  /-- A numeral that runs into a second point. -/
  | secondPoint (taken rest : List Char)
  /-- A character that starts no token. -/
  | unexpected
  deriving DecidableEq, Repr

namespace Reading

/-- A string, up to the next quote of the same kind. -/
def ofQuoted (quote : Char) (text : List Char) : Reading :=
  match text.dropWhile (· ≠ quote) with
  | [] => .unterminated
  | close :: rest => .token .string (quote :: (text.takeWhile (· ≠ quote) ++ [close])) rest

/-- A numeral: digits, and after a point more digits. -/
def ofNumeral (text : List Char) : Reading :=
  let whole := text.takeWhile Char.isDigit
  match text.dropWhile Char.isDigit with
  | '.' :: after =>
    let taken := whole ++ '.' :: after.takeWhile Char.isDigit
    match after.dropWhile Char.isDigit with
    | '.' :: rest => .secondPoint taken ('.' :: rest)
    | rest => .token .number taken rest
  | rest => .token .number whole rest

/-- A symbol, of two characters if they make one. -/
def ofSymbol (first : Char) (text : List Char) : Reading :=
  let single :=
    match symbolKind? first with
    | some kind => .token kind [first] text
    | none => .unexpected
  match text with
  | [] => single
  | second :: rest =>
    match pairKind? first second with
    | some kind => .token kind [first, second] rest
    | none => single

/-- What a text reads as, given its first character and the others. -/
def ofText (first : Char) (text : List Char) : Reading :=
  if first = '"' ∨ first = '\'' then ofQuoted first text
  else if first.isDigit then ofNumeral (first :: text)
  else if startsName first then
    .token .identifier (first :: text.takeWhile continuesName) (text.dropWhile continuesName)
  else ofSymbol first text

/-- The characters of a text are split between a token and what follows it, and a token has at
least one character. -/
theorem ofText_token {first : Char} {text taken rest : List Char} {kind : TokenKind}
    (h : ofText first text = .token kind taken rest) :
    taken ++ rest = first :: text ∧ taken ≠ [] := by
  unfold ofText at h
  split at h
  · unfold ofQuoted at h
    split at h
    · cases h
    · rename_i close after hdrop
      cases h
      have := List.takeWhile_append_dropWhile (p := (· ≠ first)) (l := text)
      rw [hdrop] at this
      simp_all
  · split at h
    · unfold ofNumeral at h
      have hfirst : (first :: text).takeWhile Char.isDigit ≠ [] := by simp [*]
      have hsplit := List.takeWhile_append_dropWhile (p := Char.isDigit) (l := first :: text)
      dsimp only at h
      split at h
      · rename_i after hdrop
        have hsplit' := List.takeWhile_append_dropWhile (p := Char.isDigit) (l := after)
        split at h
        · cases h
        · cases h
          simp only [List.append_assoc, List.cons_append, hsplit', ← hdrop, hsplit, true_and]
          simp
      · cases h
        exact ⟨hsplit, hfirst⟩
    · split at h
      · cases h
        simp [List.takeWhile_append_dropWhile]
      · unfold ofSymbol at h
        have hsingle : ∀ {k t r}, (match symbolKind? first with
            | some kind => Reading.token kind [first] text
            | none => .unexpected) = .token k t r → t ++ r = first :: text ∧ t ≠ [] := by
          intro k t r hs
          split at hs
          · cases hs; simp
          · cases hs
        dsimp only at h
        split at h
        · exact hsingle h
        · split at h
          · cases h; simp
          · exact hsingle h

end Reading

/-- A text that is being read. -/
structure Scanner where
  /-- The characters that are left. -/
  rest : List Char
  /-- How many characters came before them. -/
  position : Nat
  /-- Whether the end of input has been reported. -/
  ended : Bool
  deriving DecidableEq, Repr

namespace Scanner

/-- A scanner at the start of a text. -/
def ofText (source : String) : Scanner := ⟨source.toList, 0, false⟩

/-- Reads the next token, and leaves the scanner where reading goes on. -/
def next (scanner : Scanner) : Except LexError Token × Scanner :=
  let start := scanner.position + (scanner.rest.takeWhile isBlank).length
  match scanner.rest.dropWhile isBlank with
  | [] => (.ok ⟨.endOfInput, "", start⟩, ⟨[], start, true⟩)
  | first :: text =>
    match Reading.ofText first text with
    | .token kind taken rest =>
      (.ok ⟨kind, String.ofList taken, start⟩, ⟨rest, start + taken.length, scanner.ended⟩)
    | .unterminated =>
      (.error (.unterminatedString start), ⟨[], start + text.length + 1, scanner.ended⟩)
    | .secondPoint taken rest =>
      let point := start + taken.length
      (.error (.malformedNumber point), ⟨rest, point, scanner.ended⟩)
    | .unexpected =>
      (.error (.unexpectedSymbol first start), ⟨first :: text, start, scanner.ended⟩)

/-- An upper bound on the steps until the end is reported, if no step fails. -/
def remaining (scanner : Scanner) : Nat :=
  if scanner.ended then 0 else scanner.rest.length + 1

/-- A step that reads a token comes closer to the end. -/
theorem remaining_next {scanner after : Scanner} {token : Token} (h : scanner.ended = false)
    (hnext : scanner.next = (.ok token, after)) : after.remaining < scanner.remaining := by
  have hlength : (scanner.rest.dropWhile isBlank).length ≤ scanner.rest.length :=
    List.IsSuffix.length_le (List.dropWhile_suffix _)
  unfold next at hnext
  split at hnext
  · cases hnext
    simp [remaining, h]
  · rename_i first text hdrop
    rw [hdrop] at hlength
    dsimp only at hnext
    split at hnext
    · rename_i kind taken rest hreading
      cases hnext
      obtain ⟨hsplit, hne⟩ := Reading.ofText_token hreading
      have hsum : taken.length + rest.length = text.length + 1 := by
        rw [← List.length_append, hsplit, List.length_cons]
      have hpos := List.length_pos_iff.mpr hne
      simp only [List.length_cons] at hlength
      simp only [remaining, h, Bool.false_eq_true, if_false]
      omega
    · cases hnext
    · cases hnext
    · cases hnext

/-- The tokens that are left, the end of input last. A scanner that has reported the end has none. -/
def tokens (scanner : Scanner) : Except LexError (List Token) :=
  if h : scanner.ended = true then .ok []
  else
    match hnext : scanner.next with
    | (.error error, _) => .error error
    | (.ok token, after) =>
      have : after.remaining < scanner.remaining := remaining_next (by simpa using h) hnext
      (tokens after).map (token :: ·)
termination_by scanner.remaining

end Scanner

/-- The tokens of a text, the end of input last. -/
def tokenize (source : String) : Except LexError (List Token) := (Scanner.ofText source).tokens

end ScalarExpr
