import ScalarExpr.Proofs.Parsing.Relocation
import ScalarExpr.Proofs.Token.Munch

/-!
# A text in parentheses

No lexeme but a parenthesis itself starts with an opening or ends with a closing one. So the tokens of a
text in parentheses are those of the text, one character further on, between two more.
-/

namespace ScalarExpr

open Text

/-- The tokens of a text do not depend on what comes before it, but for their offsets. -/
theorem Munches.moved {position : Nat} {text : List Char} {result : Except LexError (List Token)}
    (h : Munches position text result) (distance : Nat) {tokens : List Token}
    (hresult : result = .ok tokens) :
    Munches (position + distance) text (.ok (tokens.map (Token.relocate (· + distance)))) := by
  induction h generalizing tokens with
  | stop =>
    cases hresult
    exact .stop
  | blank hblank _ ih =>
    have htext := ih hresult
    rw [Nat.add_right_comm] at htext
    exact .blank hblank htext
  | @token position first text taken rest kind result hblank hsplit hlongest hpoint _ ih =>
    cases result with
    | error error => cases hresult
    | ok others =>
      cases hresult
      have hrest := ih rfl
      rw [Nat.add_right_comm] at hrest
      exact .token hblank hsplit hlongest hpoint hrest
  | secondPoint | unterminated | unexpected => cases hresult

section Lexemes

variable {kind : TokenKind} {taken text : List Char} {c : Char}

/-- A symbol that starts no other one is taken at the front of a text. -/
theorem longest_of_symbol (hsymbol : ([c], kind) ∈ symbols)
    (halone : ∀ entry ∈ symbols, entry.1.head? = some c → entry.1 = [c]) (text : List Char) :
    Longest kind [c] (c :: text) := by
  refine ⟨.symbol hsymbol, List.prefix_append [c] text, fun kind' taken' h' hfront => ?_⟩
  obtain ⟨-, first, others, hchars, hdouble, hsingle, hdigit, hname⟩ := first_of_symbol hsymbol
  cases hchars
  obtain ⟨others', rfl, -⟩ := h'.cons_of_prefix hfront
  have hmem := h'.of_other (by simp [IsQuote, hdouble, hsingle]) hdigit hname
  exact Nat.le_of_eq (congrArg List.length (halone _ hmem rfl))

/-- A lexeme that ends with a closing parenthesis is no more than this. -/
theorem Lexeme.eq_nil_of_rightParen {front : List Char} (h : Lexeme kind (front ++ [')'])) :
    front = [] := by
  generalize hchars : front ++ [')'] = chars at h
  have hmem : ')' ∈ chars := by simp [← hchars]
  have hlast : chars.getLast? = some ')' := by simp [← hchars]
  cases h with
  | identifier hfirst hothers =>
    rcases List.mem_cons.mp hmem with rfl | hmem
    · exact absurd hfirst (by decide)
    · exact absurd (hothers _ hmem) (by decide)
  | whole _ hdigits => exact absurd (hdigits _ hmem) (by decide)
  | decimal _ hdigits hfraction =>
    rcases List.mem_append.mp hmem with hmem | hmem
    · exact absurd (hdigits _ hmem) (by decide)
    · rcases List.mem_cons.mp hmem with hpoint | hmem
      · exact absurd hpoint (by decide)
      · exact absurd (hfraction _ hmem) (by decide)
  | @string quote contents hquote _ =>
    rw [← List.cons_append, List.getLast?_concat] at hlast
    cases hlast
    rcases hquote with hquote | hquote <;> cases hquote
  | symbol hsymbol =>
    have hall : ∀ entry ∈ symbols, entry.1.getLast? = some ')' → entry.1 = [')'] := by decide
    have hsole := hall _ hsymbol hlast
    rw [← hchars] at hsole
    simpa using hsole

/-- A closing parenthesis behind a text does not change which lexeme is the longest at its front. -/
theorem Longest.append_rightParen (h : Longest kind taken text) :
    Longest kind taken (text ++ [')']) := by
  obtain ⟨hlexeme, hfront, hlongest⟩ := h
  refine ⟨hlexeme, hfront.trans (List.prefix_append _ _), fun kind' taken' h' hfront' => ?_⟩
  rcases List.prefix_concat_iff.mp hfront' with rfl | hinside
  · rw [h'.eq_nil_of_rightParen, List.prefix_nil] at hfront
    exact absurd hfront hlexeme.ne_nil
  · exact hlongest kind' taken' h' hinside

end Lexemes

/-- A closing parenthesis behind a text is one token more before the end of input. -/
theorem Munches.append_rightParen {position : Nat} {text : List Char}
    {result : Except LexError (List Token)} (h : Munches position text result) {tokens : List Token}
    (hresult : result = .ok tokens) :
    ∃ words stop, tokens = words ++ [⟨.endOfInput, "", stop⟩] ∧
      Munches position (text ++ [')'])
        (.ok (words ++ [⟨.rightParen, ")", stop⟩, ⟨.endOfInput, "", stop + 1⟩])) := by
  induction h generalizing tokens with
  | @stop position =>
    cases hresult
    have hparen : Longest .rightParen [')'] [')'] := longest_of_symbol (by decide) (by decide) []
    exact ⟨[], position, rfl, .token (by decide) rfl hparen nofun .stop⟩
  | blank hblank _ ih =>
    obtain ⟨words, stop, htokens, htext⟩ := ih hresult
    exact ⟨words, stop, htokens, .blank hblank htext⟩
  | @token position first text taken rest kind result hblank hsplit hlongest hpoint _ ih =>
    cases result with
    | error error => cases hresult
    | ok others =>
      cases hresult
      obtain ⟨words, stop, rfl, hrest⟩ := ih rfl
      refine ⟨_ :: words, stop, rfl, .token hblank ?_ hlongest.append_rightParen ?_ hrest⟩
      · rw [← List.append_assoc, hsplit]
        rfl
      · intro hnumber
        cases rest with
        | nil => decide
        | cons c rest => exact hpoint hnumber
  | secondPoint | unterminated | unexpected => cases hresult

/-- The tokens of a text in parentheses are those of the text, one character further on, between the
parentheses. -/
theorem tokenize_enclosed {source : String} {tokens : List Token}
    (h : tokenize source = .ok tokens) :
    ∃ words stop, tokens = words ++ [⟨.endOfInput, "", stop⟩] ∧
      tokenize ("(" ++ source ++ ")") =
        .ok (⟨.leftParen, "(", 0⟩ :: (words.map (Token.relocate (· + 1)) ++
          [⟨.rightParen, ")", stop + 1⟩]) ++ [⟨.endOfInput, "", stop + 2⟩]) := by
  have hmoved := (Munches.iff_tokenize.mpr h).moved 1 rfl
  obtain ⟨words', stop', hwords, hinner⟩ := hmoved.append_rightParen rfl
  obtain ⟨words, last, rfl, rfl, hlast⟩ := List.map_eq_append_iff.mp hwords
  obtain ⟨stop, rfl, hstop⟩ := List.map_eq_singleton_iff.mp hlast
  obtain ⟨kind, text, offset⟩ := stop
  cases hstop
  have hparen : Longest .leftParen ['('] ('(' :: (source.toList ++ [')'])) :=
    longest_of_symbol (by decide) (by decide) _
  have hmunches : Munches 0 ('(' :: (source.toList ++ [')'])) _ :=
    .token (by decide) rfl hparen nofun hinner
  have htext : ("(" ++ source ++ ")").toList = '(' :: (source.toList ++ [')']) := by simp
  refine ⟨words, offset, rfl, Munches.iff_tokenize.mp ?_⟩
  rw [htext, List.cons_append, List.append_assoc]
  exact hmunches

end ScalarExpr
