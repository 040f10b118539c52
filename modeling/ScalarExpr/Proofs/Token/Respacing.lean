import ScalarExpr.Proofs.Token.Spelling

/-!
# Respacing a text

No blank is in a lexeme, but in a string between its quotes. So where a blank or the end of the text
comes behind a lexeme, this is the longest one there: it neither loses characters nor takes more. The
tokens of a text that are written again with blanks between them are the tokens of what is written.
-/

namespace ScalarExpr

open Text

/-- A code point of a set is in one of its ranges. -/
theorem Text.Ranges.exists_mem_of_contains {ranges : Ranges} {point : Nat}
    (h : ranges.contains point) : ∃ range ∈ ranges, range.1 ≤ point ∧ point ≤ range.2 := by
  induction ranges with
  | nil => cases h
  | cons range rest ih =>
    obtain ⟨low, high⟩ := range
    simp only [Ranges.contains] at h
    split at h
    · cases h
    · next hlow =>
      split at h
      · next hhigh => exact ⟨_, List.mem_cons_self, Nat.le_of_not_lt hlow, hhigh⟩
      · obtain ⟨range, hrange, hpoint⟩ := ih h
        exact ⟨range, List.mem_cons_of_mem _ hrange, hpoint⟩

/-- Two sets whose ranges lie apart have no code point in common. -/
theorem Text.Ranges.contains_eq_false {ranges others : Ranges} {point : Nat}
    (hapart : ∀ range ∈ ranges, ∀ other ∈ others, range.2 < other.1 ∨ other.2 < range.1)
    (h : ranges.contains point) : others.contains point = false := by
  rw [Bool.eq_false_iff]
  intro hother
  obtain ⟨range, hrange, hlow, hhigh⟩ := exists_mem_of_contains h
  obtain ⟨other, hmem, hlow', hhigh'⟩ := exists_mem_of_contains hother
  have := hapart range hrange other hmem
  omega

section Blanks

variable {c : Char}

/-- A blank does not continue a name. -/
theorem not_continuesName_of_isBlank (h : isBlank c) : continuesName c = false := by
  have hletter : isAlphabetic c = false :=
    Ranges.contains_eq_false (by decide +kernel : ∀ range ∈ blank, ∀ other ∈ alphabetic,
      range.2 < other.1 ∨ other.2 < range.1) h
  have hnumber : isNumeric c = false :=
    Ranges.contains_eq_false (by decide +kernel : ∀ range ∈ blank, ∀ other ∈ numeric,
      range.2 < other.1 ∨ other.2 < range.1) h
  have hunderscore : c ≠ '_' := by
    rintro rfl
    exact absurd h (by decide)
  simp [continuesName, hletter, hnumber, hunderscore]

/-- What starts a name continues one. -/
theorem continuesName_of_startsName (h : startsName c) : continuesName c := by
  rcases Bool.or_eq_true_iff.mp h with hletter | hunderscore
  · simp [continuesName, hletter]
  · simp [continuesName, hunderscore]

/-- A blank is no digit. -/
theorem not_isDigit_of_isBlank (h : isBlank c) : c.isDigit = false := by
  rw [Bool.eq_false_iff]
  intro hdigit
  have hcontinues : continuesName c := by simp [continuesName, isNumeric_of_isDigit hdigit]
  rw [not_continuesName_of_isBlank h] at hcontinues
  cases hcontinues

/-- A lexeme with a blank in it is a string. -/
theorem Lexeme.exists_quote {kind : TokenKind} {taken : List Char} (h : Lexeme kind taken)
    (hmem : c ∈ taken) (hblank : isBlank c) :
    ∃ quote contents, taken = quote :: (contents ++ [quote]) ∧ IsQuote quote ∧
      quote ∉ contents := by
  have hname := not_continuesName_of_isBlank hblank
  have hdigit := not_isDigit_of_isBlank hblank
  cases h with
  | identifier hfirst hothers =>
    rcases List.mem_cons.mp hmem with rfl | hmem
    · simp [continuesName_of_startsName hfirst] at hname
    · simp [hothers c hmem] at hname
  | whole _ hdigits => simp [hdigits c hmem] at hdigit
  | decimal _ hdigits hfraction =>
    rcases List.mem_append.mp hmem with hmem | hmem
    · simp [hdigits c hmem] at hdigit
    · rcases List.mem_cons.mp hmem with rfl | hmem
      · exact absurd hblank (by decide)
      · simp [hfraction c hmem] at hdigit
  | string hquote hcontents => exact ⟨_, _, rfl, hquote, hcontents⟩
  | symbol hsymbol =>
    have hall : ∀ entry ∈ symbols, entry.1.any isBlank = false := by decide
    exact absurd hblank (List.any_eq_false.mp (hall _ hsymbol) c hmem)

/-- A lexeme does not start with a blank. -/
theorem Lexeme.not_isBlank_first {kind : TokenKind} {others : List Char}
    (h : Lexeme kind (c :: others)) : isBlank c = false := by
  rw [Bool.eq_false_iff]
  intro hblank
  obtain ⟨quote, contents, htaken, hquote, -⟩ := h.exists_quote List.mem_cons_self hblank
  cases htaken
  rcases hquote with rfl | rfl <;> exact absurd hblank (by decide)

end Blanks

/-- A lexeme does not go on with a blank to a longer one. -/
theorem Lexeme.not_append_blank {kind kind' : TokenKind} {taken more : List Char} {c : Char}
    (h : Lexeme kind taken) (hblank : isBlank c) : ¬ Lexeme kind' (taken ++ c :: more) := by
  intro h'
  -- The longer one is a string, and so is the shorter one, whose closing quote is then inside.
  obtain ⟨quote, contents, heq, hquote, hnone⟩ := h'.exists_quote (c := c) (by simp) hblank
  obtain ⟨first, others, rfl⟩ := List.exists_cons_of_ne_nil h.ne_nil
  rw [List.cons_append, List.cons.injEq] at heq
  obtain ⟨rfl, hothers⟩ := heq
  obtain ⟨-, inner, rfl, -⟩ := h.of_quote hquote
  have hinside : inner ++ [first] <+: contents := by
    refine List.prefix_of_prefix_length_le ⟨c :: more, hothers⟩ (List.prefix_append _ _) ?_
    have hlength := congrArg List.length hothers
    simp only [List.length_append, List.length_cons, List.length_nil] at hlength ⊢
    omega
  exact hnone (hinside.subset (by simp))

/-- Before a blank, and at the end of a text, a lexeme is the longest one. -/
theorem Lexeme.longest {kind : TokenKind} {taken rest : List Char} (h : Lexeme kind taken)
    (hrest : ∀ c ∈ rest.head?, isBlank c) : Longest kind taken (taken ++ rest) := by
  refine ⟨h, List.prefix_append _ _, fun kind' taken' h' hfront => ?_⟩
  by_contra hlonger
  obtain ⟨more, rfl⟩ := List.prefix_of_prefix_length_le (List.prefix_append taken rest) hfront
    (Nat.le_of_not_le hlonger)
  cases more with
  | nil => simp at hlonger
  | cons c more =>
    obtain ⟨others, rfl⟩ := (List.prefix_append_right_inj taken).mp hfront
    exact h.not_append_blank (hrest c rfl) h'

/-- Characters that may stand between tokens. -/
def IsGap (gap : List Char) : Prop := ∀ c ∈ gap, isBlank c

instance (gap : List Char) : Decidable (IsGap gap) :=
  decidable_of_iff (gap.all isBlank = true) List.all_eq_true

/-- Some texts one behind the other, each with a gap behind it, which has a character unless the text
is the last. -/
inductive Spaced : List String → List Char → Prop
  | done {gap : List Char} : IsGap gap → Spaced [] gap
  | word {word : String} {gap text : List Char} {words : List String} :
    IsGap gap → (words ≠ [] → gap ≠ []) → Spaced words text →
    Spaced (word :: words) (word.toList ++ (gap ++ text))

/-- A text that comes from joining some others with gaps, and may start and end with one. -/
def Respaced (words : List String) (source : String) : Prop :=
  ∃ front text, source.toList = front ++ text ∧ IsGap front ∧ Spaced words text

/-- A gap is skipped. -/
theorem Munches.gap {gap text : List Char} {result : Except LexError (List Token)}
    (hgap : IsGap gap) {position : Nat} (h : Munches (position + gap.length) text result) :
    Munches position (gap ++ text) result := by
  induction gap generalizing position with
  | nil => exact h
  | cons c gap ih =>
    obtain ⟨hblank, hgap⟩ := List.forall_mem_cons.mp hgap
    refine .blank hblank (ih hgap ?_)
    rwa [List.length_cons, Nat.add_comm gap.length, ← Nat.add_assoc] at h

/-- Before a blank, and at the end of a text, a lexeme is taken. -/
theorem Munches.lexeme_front {kind : TokenKind} {taken rest : List Char} {tokens : List Token}
    {position : Nat} (hlexeme : Lexeme kind taken) (hrest : ∀ c ∈ rest.head?, isBlank c)
    (h : Munches (position + taken.length) rest (.ok tokens)) :
    Munches position (taken ++ rest) (.ok (⟨kind, String.ofList taken, position⟩ :: tokens)) := by
  have hlongest := hlexeme.longest hrest
  have hpoint : kind = .number → rest.head? ≠ some '.' :=
    fun _ hpoint => absurd (hrest '.' hpoint) (by decide)
  obtain ⟨first, others, rfl⟩ := List.exists_cons_of_ne_nil hlexeme.ne_nil
  exact .token hlexeme.not_isBlank_first rfl hlongest hpoint h

/-- What makes a token, whatever its offset. -/
def Token.label (token : Token) : TokenKind × String := (token.kind, token.text)

/-- Behind the last text only blanks are left. -/
theorem Spaced.isGap {text : List Char} (h : Spaced [] text) : IsGap text := by
  cases h with
  | done hgap => exact hgap

/-- What comes behind a text that is spaced starts with a blank, if with anything. -/
theorem isBlank_of_head? {gap text : List Char} {words : List String} (hgap : IsGap gap)
    (hbetween : words ≠ [] → gap ≠ []) (hspaced : Spaced words text) :
    ∀ c ∈ (gap ++ text).head?, isBlank c := by
  intro c hc
  cases gap with
  | cons blank gap =>
    cases hc
    exact hgap _ List.mem_cons_self
  | nil =>
    obtain rfl : words = [] := not_imp_not.mp hbetween rfl
    exact hspaced.isGap c (List.mem_of_head? hc)

/-- Where texts are spaced that are lexemes, the tokens are these. -/
theorem Spaced.munches {words : List String} {text : List Char} (h : Spaced words text)
    {tokens : List Token} (hwords : tokens.map Token.text = words)
    (hlexemes : ∀ token ∈ tokens, Lexeme token.kind token.text.toList) (position : Nat) :
    ∃ tokens' stop, Munches position text (.ok (tokens' ++ [⟨.endOfInput, "", stop⟩])) ∧
      tokens'.map Token.label = tokens.map Token.label := by
  induction h generalizing tokens position with
  | @done gap hgap =>
    obtain rfl := List.map_eq_nil_iff.mp hwords
    refine ⟨[], position + gap.length, ?_, rfl⟩
    simpa using Munches.gap hgap .stop
  | @word word gap text words hgap hbetween hspaced ih =>
    obtain ⟨token, tokens, rfl, rfl, rfl⟩ := List.map_eq_cons_iff.mp hwords
    obtain ⟨hlexeme, hlexemes⟩ := List.forall_mem_cons.mp hlexemes
    obtain ⟨tokens', stop, hmunches, hlabels⟩ :=
      ih rfl hlexemes (position + token.text.toList.length + gap.length)
    have hfront := Munches.lexeme_front hlexeme (isBlank_of_head? hgap hbetween hspaced)
      (Munches.gap hgap hmunches)
    rw [String.ofList_toList] at hfront
    exact ⟨_ :: tokens', stop, hfront, congrArg (token.label :: ·) hlabels⟩

/-- The tokens of a text that is respaced are those of the text, at other offsets. -/
theorem tokenize_of_respaced {source source' : String} {tokens : List Token}
    (htokens : tokenize source = .ok tokens)
    (h : Respaced (tokens.dropLast.map Token.text) source') :
    ∃ tokens', tokenize source' = .ok tokens' ∧
      tokens'.map Token.label = tokens.map Token.label := by
  have hmunches := Munches.iff_tokenize.mpr htokens
  obtain ⟨words, rfl, hwords⟩ := (laidOut_of_tokenize htokens).ends
  rw [List.dropLast_concat] at h
  obtain ⟨front, text, hsource, hfront, hspaced⟩ := h
  have hlexemes : ∀ token ∈ words, Lexeme token.kind token.text.toList := fun token htoken =>
    hmunches.lexeme rfl token (List.mem_append_left _ htoken) (hwords token htoken).1
  obtain ⟨tokens', stop, hmunches', hlabels⟩ := hspaced.munches rfl hlexemes (0 + front.length)
  refine ⟨tokens' ++ [⟨.endOfInput, "", stop⟩], Munches.iff_tokenize.mp ?_, ?_⟩
  · rw [hsource]
    exact hmunches'.gap hfront
  · rw [List.map_append, List.map_append, hlabels]
    rfl

end ScalarExpr
