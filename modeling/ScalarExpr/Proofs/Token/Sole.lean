import ScalarExpr.Number.Layout
import ScalarExpr.Proofs.Token.Enclosed
import ScalarExpr.Proofs.Token.Respacing

/-!
# Texts of a single lexeme

A lexeme between blanks is the only token of its text. A minus in front of it is a token of its own,
since no other symbol starts with one.
-/

namespace ScalarExpr

/-- The token of a minus that is in front of a text, if one is. -/
def signTokens (negative : Bool) (offset : Nat) : List Token :=
  if negative then [⟨.minus, "-", offset⟩] else []

/-- A minus in front of a text is one token more, and moves the others on. -/
theorem Munches.signed {position : Nat} {text : List Char} {tokens : List Token} (negative : Bool)
    (h : Munches (position + negative.toNat) text (.ok tokens)) :
    Munches position (Binary64.signed negative text)
      (.ok (signTokens negative position ++ tokens)) := by
  cases negative with
  | false => exact h
  | true =>
    have hminus : Longest .minus ['-'] ('-' :: text) :=
      longest_of_symbol (by decide) (by decide) text
    exact .token (by decide) rfl hminus nofun h

/-- The tokens of a text that is a lexeme between blanks, perhaps with a minus in front of it. -/
theorem tokenize_of_lexeme {source : String} {negative : Bool} {front taken back : List Char}
    {kind : TokenKind} (hlexeme : Lexeme kind taken) (hfront : IsGap front) (hback : IsGap back)
    (hsource : source.toList = front ++ Binary64.signed negative (taken ++ back)) :
    tokenize source = .ok (signTokens negative front.length ++
      [⟨kind, String.ofList taken, front.length + negative.toNat⟩] ++
      [⟨.endOfInput, "", source.length⟩]) := by
  have hend := Munches.gap hback (@Munches.stop (front.length + negative.toNat + taken.length +
    back.length))
  have hlength : source.length =
      front.length + negative.toNat + taken.length + back.length := by
    rw [← String.length_toList, hsource]
    cases negative <;> simp [Binary64.signed] <;> omega
  rw [List.append_nil, ← hlength] at hend
  have htaken := (Munches.lexeme_front hlexeme (fun c hc => hback c (List.mem_of_head? hc)) hend).signed
  refine Munches.iff_tokenize.mp ?_
  rw [hsource, List.append_assoc]
  refine Munches.gap hfront ?_
  rw [Nat.zero_add]
  exact htaken

end ScalarExpr
