import ScalarExpr.Proofs.Parsing.Relocation
import ScalarExpr.Proofs.Token.Respacing

/-!
# Blanks at the end of a text

A lexeme does not end in a blank, so blanks at the end of a text are in no token, not even where a
string is open. What is read before them stays as it is: the tokens, but for the end of input, which
stands behind the blanks, and a fault of the scanner without exception.
-/

namespace ScalarExpr

open Text

/-- A lexeme does not end in a blank. -/
theorem Lexeme.not_isBlank_last {kind : TokenKind} {front : List Char} {c : Char}
    (h : Lexeme kind (front ++ [c])) : isBlank c = false := by
  rw [Bool.eq_false_iff]
  intro hblank
  obtain ⟨quote, contents, htaken, hquote, -⟩ := h.exists_quote (c := c) (by simp) hblank
  rw [← List.cons_append] at htaken
  obtain rfl : c = quote := by simpa using (List.append_inj' htaken rfl).2
  rcases hquote with rfl | rfl <;> exact absurd hblank (by decide)

section Gap

variable {kind : TokenKind} {taken text gap : List Char}

/-- A lexeme at the front of a text does not reach into blanks at the end. -/
theorem Lexeme.isPrefix_append_gap (h : Lexeme kind taken) (hgap : IsGap gap) :
    taken <+: text ++ gap ↔ taken <+: text := by
  refine ⟨fun hfront => ?_, fun hfront => hfront.trans (List.prefix_append text gap)⟩
  obtain ⟨rest, heq⟩ := hfront
  rcases List.append_eq_append_iff.mp heq with ⟨between, rfl, -⟩ | ⟨reached, rfl, rfl⟩
  · exact List.prefix_append taken between
  · cases reached using List.reverseRecOn with
    | nil => simp
    | append_singleton reached c =>
      have hblank : isBlank c := hgap c (by simp)
      rw [← List.append_assoc] at h
      rw [h.not_isBlank_last] at hblank
      cases hblank

/-- Blanks at the end of a text do not change which lexeme is the longest at its front. -/
theorem Longest.append_gap (h : Longest kind taken text) (hgap : IsGap gap) :
    Longest kind taken (text ++ gap) := by
  obtain ⟨hlexeme, hfront, hlongest⟩ := h
  exact ⟨hlexeme, (hlexeme.isPrefix_append_gap hgap).mpr hfront, fun kind' taken' h' hfront' =>
    hlongest kind' taken' h' ((h'.isPrefix_append_gap hgap).mp hfront')⟩

/-- Blanks at the end of a text make no lexeme at its front. -/
theorem NoLexeme.append_gap (h : NoLexeme text) (hgap : IsGap gap) : NoLexeme (text ++ gap) :=
  fun kind taken hlexeme hfront => h kind taken hlexeme ((hlexeme.isPrefix_append_gap hgap).mp hfront)

end Gap

/-- Moves one offset some characters further on, and no other. -/
def pushedFrom (stop distance offset : Nat) : Nat :=
  if offset = stop then stop + distance else offset

/-- The tokens of a text that are moved, behind one that is not. -/
theorem map_relocate_map_cons {f : Nat → Nat} {token : Token} (hkept : f token.offset = token.offset)
    (result : Except LexError (List Token)) :
    (result.map (token :: ·)).map (List.map (Token.relocate f)) =
      (result.map (List.map (Token.relocate f))).map (token :: ·) := by
  cases result with
  | error error => rfl
  | ok tokens =>
    show Except.ok (token.relocate f :: _) = Except.ok (token :: _)
    rw [Token.relocate, hkept]

/-- A text that is split is split at the same place with more behind it. -/
theorem split_append {taken rest text : List Char} {first : Char}
    (hsplit : taken ++ rest = first :: text) (gap : List Char) :
    taken ++ (rest ++ gap) = first :: (text ++ gap) := by
  rw [← List.append_assoc, hsplit, List.cons_append]

/-- Blanks at the end of a text only move its end of input. -/
theorem Munches.append_gap {position : Nat} {text gap : List Char}
    {result : Except LexError (List Token)} (h : Munches position text result) (hgap : IsGap gap) :
    Munches position (text ++ gap) (result.map (List.map (Token.relocate
      (pushedFrom (position + text.length) gap.length)))) := by
  induction h with
  | @stop position =>
    have hstop : pushedFrom position gap.length position = position + gap.length := if_pos rfl
    have hend := Munches.gap hgap (@Munches.stop (position + gap.length))
    simpa [Except.map, Token.relocate, hstop] using hend
  | @blank position c text result hblank _ ih =>
    rw [Nat.add_right_comm] at ih
    exact .blank hblank ih
  | @token position first text taken rest kind result hblank hsplit hlongest hpoint _ ih =>
    have hkept : pushedFrom (position + (first :: text).length) gap.length position = position :=
      if_neg (by simp)
    rw [map_relocate_map_cons hkept]
    have hlength : position + taken.length + rest.length = position + (first :: text).length := by
      rw [← hsplit, List.length_append, Nat.add_assoc]
    rw [hlength] at ih
    refine .token hblank (split_append hsplit gap) (hlongest.append_gap hgap) ?_ ih
    intro hnumber hhead
    rcases Option.or_eq_some_iff.mp (List.head?_append ▸ hhead) with hrest | ⟨-, hrest⟩
    · exact hpoint hnumber hrest
    · exact absurd (hgap '.' (List.mem_of_head? hrest)) (by decide)
  | @secondPoint position first text taken rest hblank hsplit hlongest hpoint =>
    refine .secondPoint hblank (split_append hsplit gap) (hlongest.append_gap hgap) ?_
    rw [List.head?_append, hpoint]
    rfl
  | unterminated hblank hquote hnone =>
    exact .unterminated hblank hquote (hnone.append_gap hgap)
  | unexpected hblank hquote hnone =>
    exact .unexpected hblank hquote (hnone.append_gap hgap)

section Source

variable {source gap : String}

/-- The tokens of a text with blanks at its end are those of the text, with the end of input moved. -/
theorem tokenize_append_gap (source : String) (hgap : IsGap gap.toList) :
    tokenize (source ++ gap) = (tokenize source).map
      (List.map (Token.relocate (pushedFrom source.length gap.length))) := by
  have hmunches := (Munches.iff_tokenize.mpr (Eq.refl (tokenize source))).append_gap hgap
  rw [Nat.zero_add, ← String.toList_append] at hmunches
  exact Munches.iff_tokenize.mp hmunches

/-- A text has no token but the end of input if there is nothing but blanks in it. -/
theorem tokenize_eq_end_iff :
    (∃ token, tokenize source = .ok [token] ∧ token.kind = .endOfInput) ↔ IsGap source.toList := by
  constructor
  · rintro ⟨token, htokens, -⟩ c hc
    have hlaid := laidOut_of_tokenize htokens
    obtain ⟨words, hwords, -⟩ := hlaid.ends
    -- The only token stands behind the last character, and only blanks come before it.
    obtain ⟨-, hend⟩ := List.append_inj' (show [] ++ [token] = words ++ _ from hwords) rfl
    cases hend
    obtain ⟨index, hindex, rfl⟩ := List.getElem_of_mem hc
    obtain ⟨c, hc, hblank⟩ := (hlaid.first _ rfl).2 index (Nat.zero_le _) hindex
    rw [List.getElem?_eq_getElem hindex] at hc
    cases hc
    exact hblank
  · intro hgap
    have hmunches := Munches.gap hgap (@Munches.stop (0 + source.toList.length))
    rw [List.append_nil] at hmunches
    exact ⟨_, Munches.iff_tokenize.mp hmunches, rfl⟩

end Source

end ScalarExpr
