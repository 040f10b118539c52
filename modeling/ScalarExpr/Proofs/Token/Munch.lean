import ScalarExpr.Proofs.Token.Readers

/-!
# Reading a text is taking longest lexemes

A text is taken apart from the front: blanks are skipped one by one, and otherwise the longest
lexeme is taken. This either uses up the text, and the lexemes taken are the tokens, or it stops at
a first place with an error, where no lexeme is or where a point follows a numeral.

The scanner skips blanks all at once and asks only the reader that the next character calls for. It
comes to the same.
-/

namespace ScalarExpr

open Text

/-- What taking the longest lexemes off a text comes to, with a number of characters before it. -/
inductive Munches : Nat → List Char → Except LexError (List Token) → Prop
  | stop {position : Nat} : Munches position [] (.ok [⟨.endOfInput, "", position⟩])
  | blank {position : Nat} {c : Char} {text : List Char} {result : Except LexError (List Token)} :
    isBlank c → Munches (position + 1) text result → Munches position (c :: text) result
  | token {position : Nat} {first : Char} {text taken rest : List Char} {kind : TokenKind}
      {result : Except LexError (List Token)} :
    isBlank first = false → taken ++ rest = first :: text → Longest kind taken (first :: text) →
    (kind = .number → rest.head? ≠ some '.') → Munches (position + taken.length) rest result →
    Munches position (first :: text) (result.map (⟨kind, String.ofList taken, position⟩ :: ·))
  | secondPoint {position : Nat} {first : Char} {text taken rest : List Char} :
    isBlank first = false → taken ++ rest = first :: text →
    Longest .number taken (first :: text) → rest.head? = some '.' →
    Munches position (first :: text) (.error (.malformedNumber (position + taken.length)))
  | unterminated {position : Nat} {quote : Char} {text : List Char} :
    isBlank quote = false → IsQuote quote → NoLexeme (quote :: text) →
    Munches position (quote :: text) (.error (.unterminatedString position))
  | unexpected {position : Nat} {symbol : Char} {text : List Char} :
    isBlank symbol = false → ¬ IsQuote symbol → NoLexeme (symbol :: text) →
    Munches position (symbol :: text) (.error (.unexpectedSymbol symbol position))

namespace Scanner

/-- A step that reads a token is followed by those of the rest. -/
theorem tokens_of_next_ok {scanner after : Scanner} {token : Token} (h : scanner.ended = false)
    (hnext : scanner.next = (.ok token, after)) :
    scanner.tokens = after.tokens.map (token :: ·) := by
  rw [tokens, dif_neg (by simp [h])]
  split
  · next error after' heq =>
    rw [hnext] at heq
    cases heq
  · next token' after' heq =>
    rw [hnext] at heq
    cases heq
    rfl

/-- A step that fails is the last. -/
theorem tokens_of_next_error {scanner after : Scanner} {error : LexError}
    (h : scanner.ended = false) (hnext : scanner.next = (.error error, after)) :
    scanner.tokens = .error error := by
  rw [tokens, dif_neg (by simp [h])]
  split
  · next error' after' heq =>
    rw [hnext] at heq
    cases heq
    rfl
  · next token' after' heq =>
    rw [hnext] at heq
    cases heq

variable {position : Nat} {first : Char} {text : List Char}

/-- At the end of a text only the end of input is left. -/
theorem tokens_nil : (⟨[], position, false⟩ : Scanner).tokens =
    .ok [⟨.endOfInput, "", position⟩] := by
  have hended : (⟨[], position, true⟩ : Scanner).tokens = .ok [] := by
    rw [tokens, dif_pos rfl]
  rw [tokens_of_next_ok rfl rfl]
  exact congrArg (Except.map _) hended

/-- A blank is skipped. -/
theorem tokens_blank (h : isBlank first = true) :
    (⟨first :: text, position, false⟩ : Scanner).tokens =
      (⟨text, position + 1, false⟩ : Scanner).tokens := by
  have hnext : (⟨first :: text, position, false⟩ : Scanner).next =
      (⟨text, position + 1, false⟩ : Scanner).next := by
    have hlength : position + ((text.takeWhile isBlank).length + 1) =
        position + 1 + (text.takeWhile isBlank).length := by
      omega
    simp only [next, List.takeWhile_cons, List.dropWhile_cons, h, if_true, List.length_cons,
      hlength]
  cases hafter : (⟨text, position + 1, false⟩ : Scanner).next with
  | mk answer after =>
    rw [hafter] at hnext
    cases answer with
    | ok token => rw [tokens_of_next_ok rfl hnext, tokens_of_next_ok rfl hafter]
    | error error => rw [tokens_of_next_error rfl hnext, tokens_of_next_error rfl hafter]

/-- Where no blank is, the next step is what the text reads as. -/
theorem next_of_reading {reading : Reading} (h : isBlank first = false)
    (hreading : Reading.ofText first text = reading) :
    (⟨first :: text, position, false⟩ : Scanner).next =
      match reading with
      | .token kind taken rest =>
        (.ok ⟨kind, String.ofList taken, position⟩, ⟨rest, position + taken.length, false⟩)
      | .unterminated =>
        (.error (.unterminatedString position), ⟨[], position + text.length + 1, false⟩)
      | .secondPoint taken rest =>
        (.error (.malformedNumber (position + taken.length)),
          ⟨rest, position + taken.length, false⟩)
      | .unexpected =>
        (.error (.unexpectedSymbol first position), ⟨first :: text, position, false⟩) := by
  simp only [next, List.takeWhile_cons, List.dropWhile_cons, h, Bool.false_eq_true, if_false,
    hreading, List.length_nil, Nat.add_zero]
  cases reading <;> rfl

end Scanner

/-- What taking longest lexemes comes to is what the scanner reads. -/
theorem Munches.tokens_eq {position : Nat} {text : List Char}
    {result : Except LexError (List Token)} (h : Munches position text result) :
    (⟨text, position, false⟩ : Scanner).tokens = result := by
  induction h with
  | stop => exact Scanner.tokens_nil
  | blank hblank _ ih => rw [Scanner.tokens_blank hblank, ih]
  | token hblank hsplit hlongest hpoint _ ih =>
    have hreading := Reading.ofText_eq_iff_describes.mpr
      (show (Reading.token _ _ _).Describes _ _ from ⟨hsplit, hlongest, hpoint⟩)
    rw [Scanner.tokens_of_next_ok rfl (Scanner.next_of_reading hblank hreading), ih]
  | secondPoint hblank hsplit hlongest hpoint =>
    have hreading := Reading.ofText_eq_iff_describes.mpr
      (show (Reading.secondPoint _ _).Describes _ _ from ⟨hsplit, hlongest, hpoint⟩)
    exact Scanner.tokens_of_next_error rfl (Scanner.next_of_reading hblank hreading)
  | unterminated hblank hquote hnone =>
    have hreading := Reading.ofText_eq_iff_describes.mpr
      (show Reading.unterminated.Describes _ _ from ⟨hquote, hnone⟩)
    exact Scanner.tokens_of_next_error rfl (Scanner.next_of_reading hblank hreading)
  | unexpected hblank hquote hnone =>
    have hreading := Reading.ofText_eq_iff_describes.mpr
      (show Reading.unexpected.Describes _ _ from ⟨hquote, hnone⟩)
    exact Scanner.tokens_of_next_error rfl (Scanner.next_of_reading hblank hreading)

/-- What the scanner reads is what taking longest lexemes comes to. -/
theorem Scanner.munches_tokens (position : Nat) (text : List Char) :
    Munches position text (⟨text, position, false⟩ : Scanner).tokens := by
  -- The induction is on the length, since a token may take any number of characters.
  induction hlength : text.length using Nat.strong_induction_on generalizing position text with
  | _ length ih =>
    subst hlength
    cases text with
    | nil =>
      rw [tokens_nil]
      exact .stop
    | cons first text =>
      cases hblank : isBlank first with
      | true =>
        rw [tokens_blank hblank]
        exact .blank hblank (ih text.length (by simp) _ text rfl)
      | false =>
        have hdescribes := Reading.ofText_describes first text
        cases hreading : Reading.ofText first text with
        | token kind taken rest =>
          rw [hreading] at hdescribes
          obtain ⟨hsplit, hlongest, hpoint⟩ := hdescribes
          have hshorter : rest.length < (first :: text).length := by
            have := List.length_pos_iff.mpr hlongest.1.ne_nil
            rw [← hsplit, List.length_append]
            omega
          rw [tokens_of_next_ok rfl (next_of_reading hblank hreading)]
          exact .token hblank hsplit hlongest hpoint (ih rest.length hshorter _ rest rfl)
        | unterminated =>
          rw [hreading] at hdescribes
          rw [tokens_of_next_error rfl (next_of_reading hblank hreading)]
          exact .unterminated hblank hdescribes.1 hdescribes.2
        | secondPoint taken rest =>
          rw [hreading] at hdescribes
          obtain ⟨hsplit, hlongest, hpoint⟩ := hdescribes
          rw [tokens_of_next_error rfl (next_of_reading hblank hreading)]
          exact .secondPoint hblank hsplit hlongest hpoint
        | unexpected =>
          rw [hreading] at hdescribes
          rw [tokens_of_next_error rfl (next_of_reading hblank hreading)]
          exact .unexpected hblank hdescribes.1 hdescribes.2

/-- A text has the tokens, or the error, that taking longest lexemes comes to. -/
theorem Munches.iff_tokenize {source : String} {result : Except LexError (List Token)} :
    Munches 0 source.toList result ↔ tokenize source = result := by
  constructor
  · exact Munches.tokens_eq
  · rintro rfl
    exact Scanner.munches_tokens 0 source.toList

end ScalarExpr
