import ScalarExpr.Proofs.Parsing.Account
import ScalarExpr.Proofs.Parsing.Depth
import ScalarExpr.Proofs.Parsing.Reuse
import ScalarExpr.Proofs.Token.Steps

/-!
# Handing a scanner over to a parser

A parser is given a scanner and reads all the tokens that are left before it looks at any of them.
The scanner may have taken steps before. If these were tokens, what is left are the other tokens of the
text, at the same offsets, or the same error. If there were errors among them, what is left are still
tokens that lie over the text from where the scanner stands, up to one end of input.

Only a scanner that has reported the end of input has no token left, not even that one. The parser
makes up an end of input then, and puts it at the start of the text.
-/

namespace ScalarExpr

namespace Scanner

/-- A scanner stands in a text: it has left what comes behind the characters before it. -/
structure StandsIn (source : List Char) (scanner : Scanner) : Prop where
  /-- It does not stand behind the end. -/
  within : scanner.position ≤ source.length
  /-- What it has left is the text from there on. -/
  rest : scanner.rest = source.drop scanner.position

section StandsIn

variable {source : List Char} {scanner following : Scanner} {found : Except LexError Token}

/-- Where a scanner stands in a text, the text has as many characters as the scanner says. -/
theorem StandsIn.size_eq (h : StandsIn source scanner) : scanner.size = source.length := by
  rw [size, h.rest, List.length_drop]
  have := h.within
  omega

/-- Beyond characters that are left, a scanner stands in the same text. -/
theorem StandsIn.beyond (h : StandsIn source scanner) (before : List Char)
    (hrest : scanner.rest = before ++ following.rest)
    (hposition : following.position = scanner.position + before.length) :
    StandsIn source following where
  within := by
    have hlength := h.size_eq
    rw [size, hrest, List.length_append] at hlength
    omega
  rest := by
    rw [hposition, ← List.drop_drop, ← h.rest, hrest, List.drop_left]

/-- A step does not leave the text. -/
theorem StandsIn.step (h : StandsIn source scanner) (hstep : scanner.Step found following) :
    StandsIn source following := by
  cases hstep with
  | finish => exact h.beyond scanner.rest (by simp) rfl
  | @token gap taken rest kind hrest _ =>
    exact h.beyond (gap ++ taken) (by simp [hrest]) (by simp [Nat.add_assoc])
  | @secondPoint gap taken rest hrest _ =>
    exact h.beyond (gap ++ taken) (by simp [hrest]) (by simp [Nat.add_assoc])
  | @unterminated gap text quote hrest =>
    exact h.beyond (gap ++ quote :: text) (by simp [hrest]) (by simp [Nat.add_assoc])
  | unexpected hrest _ _ => exact h.beyond _ hrest rfl

/-- After any steps from the start of a text, a scanner stands in it. -/
theorem standsIn_after (source : String) (steps : Nat) :
    StandsIn source.toList ((Scanner.ofText source).after steps) := by
  induction steps with
  | zero => exact ⟨Nat.zero_le _, rfl⟩
  | succ steps ih => exact ih.step ((Scanner.ofText source).step_answer steps)

end StandsIn

/-- The end of input is reported. -/
def ReportsEnd (found : Except LexError Token) : Prop :=
  ∃ token, found = .ok token ∧ token.kind = .endOfInput

/-- The end of input is reported at the end of the text. -/
theorem ReportsEnd.offsetOf_eq {scanner : Scanner} {step : Nat}
    (h : ReportsEnd (scanner.answer step)) : offsetOf (scanner.answer step) = scanner.size := by
  obtain ⟨token, hanswer, hkind⟩ := h
  have hstep := scanner.step_answer step
  rw [hanswer] at hstep
  rw [hanswer, hstep.eq_endOfInput hkind, offsetOf, size_after]

/-- A scanner knows whether the end of input has been reported in a step. -/
theorem Step.ended_iff {scanner following : Scanner} {found : Except LexError Token}
    (h : scanner.Step found following) :
    following.ended = true ↔ scanner.ended = true ∨ ReportsEnd found := by
  cases h with
  | finish => exact ⟨fun _ => .inr ⟨_, rfl, rfl⟩, fun _ => rfl⟩
  | token _ hlexeme => simp [ReportsEnd, hlexeme.ne_endOfInput]
  | secondPoint | unterminated | unexpected => simp [ReportsEnd]

/-- A scanner knows whether the end of input has been reported in any of some steps. -/
theorem ended_after_iff (scanner : Scanner) (steps : Nat) :
    (scanner.after steps).ended = true ↔
      scanner.ended = true ∨ ∃ step < steps, ReportsEnd (scanner.answer step) := by
  induction steps with
  | zero => simp [after]
  | succ steps ih =>
    rw [(scanner.step_answer steps).ended_iff, ih, or_assoc]
    simp only [Nat.lt_succ_iff_lt_or_eq, or_and_right, exists_or, exists_eq_left]

/-- A scanner that has reported the end of input has no tokens left. -/
theorem tokens_of_ended {scanner : Scanner} (h : scanner.ended = true) : scanner.tokens = .ok [] := by
  rw [tokens, dif_pos h]

/-- A scanner that has not reported the end takes the longest lexemes off what it has left. -/
theorem munches_of_not_ended {scanner : Scanner} (h : scanner.ended = false) :
    Munches scanner.position scanner.rest scanner.tokens := by
  obtain ⟨rest, position, ended⟩ := scanner
  cases h
  exact munches_tokens position rest

/-- The tokens that are left lie over the text from where the scanner stands. -/
theorem StandsIn.laidOut {source : List Char} {scanner : Scanner} {tokens : List Token}
    (h : StandsIn source scanner) (hended : scanner.ended = false)
    (htokens : scanner.tokens = .ok tokens) : LaidOut source scanner.position tokens := by
  have hlaid := (munches_of_not_ended hended).laidOut (source.take scanner.position)
    (List.length_take_of_le h.within) htokens
  rwa [h.rest, List.take_append_drop] at hlaid

/-- Steps that take tokens take them off the front of those that were left, and do not report the
end. -/
theorem tokens_eq_append {scanner : Scanner} {pulled : List Token} (hended : scanner.ended = false)
    (hanswers : (List.range pulled.length).map scanner.answer = pulled.map .ok)
    (hkinds : ∀ token ∈ pulled, token.kind ≠ .endOfInput) :
    (scanner.after pulled.length).ended = false ∧
      scanner.tokens = (scanner.after pulled.length).tokens.map (pulled ++ ·) := by
  induction pulled generalizing scanner with
  | nil =>
    refine ⟨hended, ?_⟩
    show scanner.tokens = scanner.tokens.map id
    cases scanner.tokens <;> rfl
  | cons token pulled ih =>
    obtain ⟨hkind, hkinds⟩ := List.forall_mem_cons.mp hkinds
    rw [List.length_cons, List.range_succ_eq_map, List.map_cons, List.map_cons, List.map_map,
      List.cons.injEq] at hanswers
    obtain ⟨hfirst, hothers⟩ := hanswers
    have hstep := scanner.step_answer 0
    rw [hfirst] at hstep
    have hfollowing : scanner.next.2.ended = false := by
      rw [Bool.eq_false_iff]
      intro hreported
      rcases hstep.ended_iff.mp hreported with hbefore | ⟨other, hother, hend⟩
      · simp [after, hended] at hbefore
      · cases hother
        exact hkind hend
    obtain ⟨hlast, htokens⟩ := ih hfollowing hothers hkinds
    refine ⟨hlast, ?_⟩
    rw [tokens_of_next_ok hended (Prod.ext hfirst rfl), htokens]
    show _ = Except.map _ (scanner.next.2.after pulled.length).tokens
    cases (scanner.next.2.after pulled.length).tokens <;> rfl

end Scanner

namespace LaidOut

variable {source : List Char} {start : Nat} {tokens : List Token}

/-- No token starts before the tokens do. -/
theorem start_le (h : LaidOut source start tokens) {token : Token} (htoken : token ∈ tokens) :
    start ≤ token.offset := by
  cases tokens with
  | nil => cases htoken
  | cons first others =>
    have hfirst := (h.first first rfl).1
    rcases List.mem_cons.mp htoken with rfl | hother
    · exact hfirst
    · have hends := List.rel_of_pairwise_cons h.pairwise hother
      unfold Token.EndsBefore at hends
      omega

/-- Tokens that lie over a text are complete. -/
theorem completed_eq (h : LaidOut source start tokens) : completed tokens = tokens := by
  obtain ⟨words, rfl, -⟩ := h.ends
  exact completed_of_getLast? (by rw [List.getLast?_concat]; rfl)

/-- Tokens that lie over a text are read as a stream that ends where the text does. -/
theorem ofTokens_eq (h : LaidOut source start tokens) :
    TokenStream.ofTokens tokens = ⟨tokens.dropLast, source.length⟩ := by
  obtain ⟨words, rfl, hwords⟩ := h.ends
  rw [TokenStream.ofTokens_append_end (fun token htoken => (hwords token htoken).1) rfl,
    List.dropLast_concat]

/-- An error of a reading of some of the tokens is attributed to one of them. -/
theorem exists_offset_eq (h : LaidOut source start tokens) {limits : Limits} {stream : TokenStream}
    (hstop : stream.stop = source.length) (hsubset : stream.tokens ⊆ tokens) {error : ParseError}
    (herror : (stream.parse limits).1 = .error error) :
    ∃ token ∈ tokens, token.offset = error.offset := by
  rcases TokenStream.marks_parse herror with hend | ⟨token, htoken, hoffset⟩
  · obtain ⟨words, rfl, -⟩ := h.ends
    exact ⟨_, List.mem_append_right _ (List.mem_singleton_self _), (hend.trans hstop).symm⟩
  · exact ⟨token, hsubset htoken, hoffset⟩

end LaidOut

/-- Every node of a tree other than a conditional repeats one of its tokens. -/
theorem Derives.exists_repeats {nesting : Option Nat} {form : Form} {opened : Nat}
    {tokens : List Token} {e node : Expr} (h : Derives nesting form opened tokens e)
    (hnode : node ∈ e.inOrder) : ∃ token ∈ tokens, node.Repeats token := by
  obtain ⟨index, hindex, rfl⟩ := List.getElem_of_mem hnode
  have hindex' : index < (tokens.filter (·.kind.makesNode)).length := by
    rwa [← h.repeats.length_eq]
  exact ⟨_, (List.mem_filter.mp (List.getElem_mem hindex')).1, h.repeats.get hindex hindex'⟩

/-- An error is found behind where the text starts to be taken apart. -/
theorem Munches.le_error_offset {position : Nat} {text : List Char}
    {result : Except LexError (List Token)} (h : Munches position text result) {error : LexError}
    (hresult : result = .error error) : position ≤ error.offset := by
  induction h with
  | stop => cases hresult
  | blank _ _ ih => exact Nat.le_of_succ_le (ih hresult)
  | @token position first text taken rest kind result _ _ _ _ _ ih =>
    cases result with
    | ok others => cases hresult
    | error found => exact Nat.le_trans (Nat.le_add_right _ _) (ih hresult)
  | secondPoint =>
    cases hresult
    exact Nat.le_add_right _ _
  | unterminated | unexpected =>
    cases hresult
    exact Nat.le_refl _

namespace TokenStream

/-- The stream of what a scanner has left, if this is tokens. -/
def ofScanner (scanner : Scanner) : Except LexError TokenStream :=
  scanner.tokens.map TokenStream.ofTokens

/-- The tree of what a scanner has left is the first that is read from its stream. -/
theorem ofScanner_eq (limits : Limits) (scanner : Scanner) :
    Expr.ofScanner limits scanner =
      match ofScanner scanner with
      | .error error => .error (.lex error)
      | .ok stream =>
        match (stream.parse limits).1 with
        | .error error => .error (.parse error)
        | .ok e => .ok e := by
  rw [Expr.ofScanner, ofScanner]
  cases scanner.tokens <;> rfl

/-- An answer among several is that of a reading of some of the tokens, up to the same end. -/
theorem exists_parse_subset_of_mem_answers {limits : Limits} {calls : Nat} {stream : TokenStream}
    {answer : Except ParseError Expr} (h : answer ∈ stream.answers limits calls) :
    ∃ stream' : TokenStream, stream'.stop = stream.stop ∧ stream'.tokens ⊆ stream.tokens ∧
      (stream'.parse limits).1 = answer := by
  induction calls generalizing stream with
  | zero => exact absurd h List.not_mem_nil
  | succ calls ih =>
    rcases List.mem_cons.mp h with hfirst | hlater
    · exact ⟨stream, rfl, List.Subset.refl _, hfirst.symm⟩
    · obtain ⟨stream', hstop, hsubset, hanswer⟩ := ih hlater
      exact ⟨stream', hstop.trans (stop_rest limits stream),
        List.Subset.trans hsubset (rest_subset limits stream), hanswer⟩

end TokenStream

open Scanner TokenStream

/-- What holds when a parser is given a scanner that has these tokens of a text left. -/
structure HandsOver (source : String) (scanner : Scanner) (left : List Token) : Prop where
  /-- The scanner comes to these tokens when it is run to the end. -/
  tokens : scanner.tokens = .ok left
  /-- The parser reads them as if it had been given them. -/
  stream : ofScanner scanner = .ok (TokenStream.ofTokens left)
  /-- It puts no end of input behind them. -/
  complete : completed left = left
  /-- It reads up to the end of the text. -/
  stop : (TokenStream.ofTokens left).stop = source.length
  /-- Every call of the parser answers as the stream does. -/
  calls : ∀ limits calls, Cursor.answer? limits left calls =
    ((TokenStream.ofTokens left).answers limits (calls + 1))[calls]?
  /-- Offsets are counted from the start of the text: every token stands in it at its offset. -/
  slices : ∀ token ∈ left,
    token.text.toList = (source.toList.drop token.offset).take token.length
  /-- However often the parser is called, its errors are attributed to these tokens. -/
  errors : ∀ limits calls error, .error error ∈ (TokenStream.ofTokens left).answers limits calls →
    ∃ token ∈ left, token.offset = error.offset
  /-- Its trees repeat these tokens, at their offsets. -/
  nodes : ∀ limits calls e, .ok e ∈ (TokenStream.ofTokens left).answers limits calls →
    ∀ node ∈ e.inOrder, ∃ token ∈ left, node.Repeats token

/-- A scanner that has not reported the end hands its tokens over. -/
theorem Scanner.StandsIn.handsOver {source : String} {scanner : Scanner} {left : List Token}
    (h : StandsIn source.toList scanner) (hended : scanner.ended = false)
    (htokens : scanner.tokens = .ok left) : HandsOver source scanner left := by
  have hlaid := h.laidOut hended htokens
  have hstream := hlaid.ofTokens_eq
  rw [String.length_toList] at hstream
  exact {
    tokens := htokens
    stream := by rw [ofScanner, htokens]; rfl
    complete := hlaid.completed_eq
    stop := by rw [hstream]
    calls := by
      intro limits calls
      obtain ⟨words, rfl, hwords⟩ := hlaid.ends
      rw [TokenStream.getElem?_answers, answer?_eq limits rfl fun token htoken =>
        (hwords token htoken).1, hstream, List.dropLast_concat, String.length_toList]
    slices := hlaid.slices
    errors := by
      intro limits calls error hmem
      rw [hstream] at hmem
      obtain ⟨stream, hstop, hsubset, hanswer⟩ := exists_parse_subset_of_mem_answers hmem
      exact hlaid.exists_offset_eq (hstop.trans String.length_toList.symm)
        (List.Subset.trans hsubset (List.dropLast_subset left)) hanswer
    nodes := by
      intro limits calls e hmem node hnode
      rw [hstream] at hmem
      obtain ⟨stream, -, hsubset, hanswer⟩ := exists_parse_subset_of_mem_answers hmem
      rw [parse_eq_ok_iff, Parse.reads_conditional_iff] at hanswer
      obtain ⟨token, htoken, hrepeats⟩ := hanswer.1.exists_repeats hnode
      exact ⟨token, List.dropLast_subset left (hsubset htoken), hrepeats⟩ }

section Pulled

variable {source : String} {pulled : List Token}

/-- Tokens that have been taken off a text one by one are the first of the text, and the others are
handed over. Where the text has an error, it is still met. -/
theorem handsOver_of_pulled
    (hanswers : (List.range pulled.length).map (Scanner.ofText source).answer = pulled.map .ok)
    (hkinds : ∀ token ∈ pulled, token.kind ≠ .endOfInput) :
    let scanner := (Scanner.ofText source).after pulled.length
    (∀ tokens, tokenize source = .ok tokens → pulled = tokens.take pulled.length ∧
      HandsOver source scanner (tokens.drop pulled.length)) ∧
    ∀ error, tokenize source = .error error →
      scanner.tokens = .error error ∧ ofScanner scanner = .error error := by
  intro scanner
  obtain ⟨hended, htokens⟩ := Scanner.tokens_eq_append rfl hanswers hkinds
  rw [tokenize, htokens]
  cases hleft : scanner.tokens with
  | error error =>
    refine ⟨nofun, ?_⟩
    rintro error ⟨⟩
    exact ⟨rfl, by rw [ofScanner, hleft]; rfl⟩
  | ok left =>
    refine ⟨?_, nofun⟩
    rintro tokens ⟨⟩
    rw [List.take_left, List.drop_left]
    exact ⟨rfl, (Scanner.standsIn_after source pulled.length).handsOver hended hleft⟩

end Pulled

/-- When a name and an operator have been taken off a sum, the other name is handed over. -/
theorem handsOver_second_name :
    let pulled : List Token := [⟨.identifier, "a", 0⟩, ⟨.plus, "+", 2⟩]
    (List.range pulled.length).map (Scanner.ofText "a + b").answer = pulled.map .ok ∧
      tokenize "a + b" = .ok (pulled ++ [⟨.identifier, "b", 4⟩, ⟨.endOfInput, "", 5⟩]) ∧
      HandsOver "a + b" ((Scanner.ofText "a + b").after pulled.length)
        [⟨.identifier, "b", 4⟩, ⟨.endOfInput, "", 5⟩] := by
  intro pulled
  have hanswers : (List.range pulled.length).map (Scanner.ofText "a + b").answer =
      pulled.map .ok := rfl
  have htokens : tokenize "a + b" =
      .ok (pulled ++ [⟨.identifier, "b", 4⟩, ⟨.endOfInput, "", 5⟩]) := by
    decide +kernel
  exact ⟨hanswers, htokens, ((handsOver_of_pulled hanswers (by decide)).1 _ htokens).2⟩

/-- What a scanner leaves ends with the text, and nothing that is reported about it lies before where
the scanner stands. -/
structure EndsOnce (source : String) (scanner : Scanner) : Prop where
  /-- The end of input comes last among the tokens, at the end of the text, and nowhere else. -/
  ends : ∀ left, scanner.tokens = .ok left → ∃ words,
    left = words ++ [⟨.endOfInput, "", source.length⟩] ∧ ∀ token ∈ words, token.kind ≠ .endOfInput
  /-- If there are no tokens, the error is ahead of the scanner. -/
  faults : ∀ error, scanner.tokens = .error error → scanner.position ≤ error.offset
  /-- However often a parser of the tokens is called, its errors are ahead of the scanner. -/
  errors : ∀ left, scanner.tokens = .ok left → ∀ limits calls error,
    .error error ∈ (TokenStream.ofTokens left).answers limits calls →
      scanner.position ≤ error.offset

/-- A scanner that has not reported the end leaves what ends with the text. -/
theorem Scanner.StandsIn.endsOnce {source : String} {scanner : Scanner}
    (h : StandsIn source.toList scanner) (hended : scanner.ended = false) :
    EndsOnce source scanner where
  ends := by
    intro left hleft
    obtain ⟨words, rfl, hwords⟩ := (h.laidOut hended hleft).ends
    exact ⟨words, by rw [String.length_toList], fun token htoken => (hwords token htoken).1⟩
  faults := fun _ herror => (munches_of_not_ended hended).le_error_offset herror
  errors := by
    intro left hleft limits calls error hmem
    obtain ⟨token, htoken, hoffset⟩ := (h.handsOver hended hleft).errors limits calls error hmem
    rw [← hoffset]
    exact (h.laidOut hended hleft).start_le htoken

/-- Whatever steps a scanner of a text has taken, errors included, it leaves what ends with the text if
none of them has reported the end of input. If one has, it leaves no tokens at all, and a parser that
is given them finds an end of input at the start of the text, though the scanner stands at its end. -/
theorem endsOnce_unless_reported (source : String) (steps : Nat) :
    ((∀ step < steps, ¬ ReportsEnd ((Scanner.ofText source).answer step)) →
      EndsOnce source ((Scanner.ofText source).after steps)) ∧
    ((∃ step < steps, ReportsEnd ((Scanner.ofText source).answer step)) →
      ((Scanner.ofText source).after steps).tokens = .ok [] ∧
        ((Scanner.ofText source).after steps).position = source.length ∧
        ∀ limits, Expr.ofScanner limits ((Scanner.ofText source).after steps) =
          .error (.parse (.unexpectedToken "end of input" 0))) := by
  have hstands := Scanner.standsIn_after source steps
  have hended := (Scanner.ofText source).ended_after_iff steps
  constructor
  · intro hnone
    refine hstands.endsOnce (Bool.eq_false_iff.mpr fun hreported => ?_)
    rcases hended.mp hreported with hbefore | ⟨step, hstep, hend⟩
    · cases hbefore
    · exact hnone step hstep hend
  · rintro ⟨step, hstep, hreports⟩
    have hnone := Scanner.tokens_of_ended (hended.mpr (.inr ⟨step, hstep, hreports⟩))
    refine ⟨hnone, ?_, fun limits => ?_⟩
    · have hreached := (Scanner.ofText source).offsetOf_answer_le hstep
      have hwithin := hstands.within
      rw [hreports.offsetOf_eq, size_ofText] at hreached
      rw [String.length_toList] at hwithin
      exact Nat.le_antisymm hwithin hreached
    · have hstream : ofScanner ((Scanner.ofText source).after steps) = .ok ⟨[], 0⟩ := by
        rw [ofScanner, hnone]
        rfl
      simp only [ofScanner_eq, hstream, parse_nil]

/-- A scanner that has taken the only token of a text and reported the end leaves nothing. A parser that
is given it finds an end of input before the token. -/
theorem not_endsOnce_after_end :
    (¬ ∀ (source : String) (steps : Nat), EndsOnce source ((Scanner.ofText source).after steps)) ∧
      ((Scanner.ofText "a").after 2).tokens = .ok [] ∧
      ((Scanner.ofText "a").after 2).position = 1 ∧
      Expr.ofScanner .standard ((Scanner.ofText "a").after 2) =
        .error (.parse (.unexpectedToken "end of input" 0)) := by
  have hafter : (Scanner.ofText "a").after 2 = ⟨[], 1, true⟩ := rfl
  have hnone : ((Scanner.ofText "a").after 2).tokens = .ok [] := Scanner.tokens_of_ended rfl
  refine ⟨fun h => ?_, hnone, rfl, by rw [hafter]; decide +kernel⟩
  obtain ⟨words, hwords, -⟩ := (h "a" 2).ends [] hnone
  simp at hwords

end ScalarExpr
