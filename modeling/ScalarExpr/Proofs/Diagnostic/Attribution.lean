import ScalarExpr.Diagnostic
import ScalarExpr.Proofs.Expr.Accusation
import ScalarExpr.Proofs.Parsing.Source

/-!
# What a diagnostic points at

The offset of an error goes from the characters to the tokens, from there to the nodes of the tree,
and from the nodes to the diagnostic. At the end of this way it still points at what the message is
about: a character that makes no token, a token that the grammar does not allow, or the operator
that has no result. Only a comparison is attributed elsewhere, to a token of its right operand.
-/

namespace ScalarExpr

/-- The place in a text that an error of an evaluation points at: the operator that it names, or for
a comparison a token behind the operator. -/
def EvalError.Located (source : String) : EvalError → Prop
  | .unaryOperand op _ offset => op ≠ .not ∧ Spells source offset op.symbol
  | .nullOperand offset => Spells source offset Arithmetic.add.symbol
  | .arithmeticOperands op _ _ offset => op ≠ .add ∧ Spells source offset op.symbol
  | .comparisonOperands op _ _ offset =>
    ∃ tokens, tokenize source = .ok tokens ∧ ∃ token ∈ tokens, ∃ other ∈ tokens,
      token.kind = (BinaryOp.comparison op).kind ∧ token.offset < other.offset ∧
        other.offset = offset
  | .divisionByZero offset => Spells source offset Arithmetic.divide.symbol

/-- Tokens that show a node lead from its error to the text. -/
theorem EvalError.Accuses.located {source : String} {tokens : List Token} {error : EvalError}
    {node : Expr} (h : error.Accuses node) (htokens : tokenize source = .ok tokens)
    (hstands : Stands tokens node) : error.Located source := by
  cases error with
  | unaryOperand op found offset =>
    obtain ⟨hnot, operand, rfl⟩ := h
    obtain ⟨token, htoken, rfl, hop⟩ := hstands
    exact ⟨hnot, spells_unary htokens htoken hop⟩
  | nullOperand offset =>
    obtain ⟨left, right, rfl⟩ := h
    obtain ⟨before, token, after, rfl, rfl, hop, -⟩ := hstands
    have hspells := spells_binary htokens (List.mem_append_right _ List.mem_cons_self) hop
    exact hspells
  | arithmeticOperands op a b offset =>
    obtain ⟨hadd, left, right, rfl⟩ := h
    obtain ⟨before, token, after, rfl, rfl, hop, -⟩ := hstands
    have hspells := spells_binary htokens (List.mem_append_right _ List.mem_cons_self) hop
    exact ⟨hadd, hspells⟩
  | comparisonOperands op a b offset =>
    obtain ⟨left, right, pos, rfl, rfl⟩ := h
    obtain ⟨before, token, after, rfl, -, hop, other, hother, hright⟩ := hstands
    have hmem : token ∈ before ++ token :: after := by simp
    have hlaid := laidOut_of_tokenize htokens
    have hlength := (hlaid.offset_lt hmem (BinaryOp.ne_endOfInput hop)).1
    have hbehind : token.EndsBefore other :=
      List.rel_of_pairwise_cons (List.pairwise_append.mp hlaid.pairwise).2.1 hother
    unfold Token.EndsBefore at hbehind
    exact ⟨_, htokens, token, hmem, other, by simp [hother], hop, by omega, hright⟩
  | divisionByZero offset =>
    obtain ⟨left, right, rfl⟩ := h
    obtain ⟨before, token, after, rfl, rfl, hop, -⟩ := hstands
    have hspells := spells_binary htokens (List.mem_append_right _ List.mem_cons_self) hop
    exact hspells

/-- What an error points at does not start behind the end of the text. -/
theorem EvalError.Located.offset_le {source : String} {error : EvalError}
    (h : error.Located source) : error.offset ≤ source.length := by
  cases error with
  | unaryOperand op found offset => exact h.2.offset_le
  | nullOperand offset =>
    have hspells : Spells source offset Arithmetic.add.symbol := h
    exact hspells.offset_le
  | arithmeticOperands op a b offset => exact h.2.offset_le
  | comparisonOperands op a b offset =>
    obtain ⟨tokens, htokens, token, -, other, hother, -, -, rfl⟩ := h
    exact (laidOut_of_tokenize htokens).offset_le hother
  | divisionByZero offset =>
    have hspells : Spells source offset Arithmetic.divide.symbol := h
    exact hspells.offset_le

section Source

variable {source : String} {tokens : List Token}

/-- The nodes of the tree of a text stand where its tokens show them. -/
theorem stands_of_parse (h : tokenize source = .ok tokens) {e node : Expr}
    (hparse : ((TokenStream.ofTokens tokens).parse .standard).1 = .ok e)
    (hnode : node ∈ e.subtrees) : Stands tokens node := by
  obtain ⟨words, rfl, -, hstream⟩ := ofTokens_of_tokenize h
  rw [hstream, TokenStream.parse_eq_ok_iff, Parse.reads_conditional_iff] at hparse
  exact (hparse.1.stands node hnode).among [] [_]

/-- An error of the parser is attributed to a token of the text, and to the end of input exactly if
its offset is the length of the text. -/
theorem exists_token_of_parse (h : tokenize source = .ok tokens) {error : ParseError}
    (hparse : ((TokenStream.ofTokens tokens).parse .standard).1 = .error error) :
    ∃ token ∈ tokens, token.offset = error.offset ∧
      (error.offset = source.length ↔ token.kind = .endOfInput) := by
  have hlaid := laidOut_of_tokenize h
  obtain ⟨words, rfl, hkinds, hstream⟩ := ofTokens_of_tokenize h
  have hmarks := TokenStream.marks_parse hparse
  rw [hstream] at hmarks
  rcases hmarks with hstop | ⟨token, htoken, hoffset⟩
  · exact ⟨⟨.endOfInput, "", source.length⟩, by simp, hstop.symm, fun _ => rfl, fun _ => hstop⟩
  · have hkind := hkinds token htoken
    have hlt : token.offset < source.length := (hlaid.offset_lt (by simp [htoken]) hkind).2
    rw [hoffset] at hlt
    exact ⟨token, by simp [htoken], hoffset,
      fun hend => absurd hend (Nat.ne_of_lt hlt), fun hend => absurd hend hkind⟩

/-- An error of the scanner is found at a character of the text. -/
theorem offset_lt_of_tokenize {error : LexError} (h : tokenize source = .error error) :
    error.offset < source.length := by
  have hlt := (Munches.iff_tokenize.mpr h).error_offset_lt rfl
  rw [Nat.zero_add] at hlt
  exact hlt

end Source

/-- The result of a text is that of its tokens. -/
theorem evaluateWith_of_tokenize {source : String} {tokens : List Token}
    (h : tokenize source = .ok tokens) (vars : Variables) :
    evaluateWith vars source =
      match ((TokenStream.ofTokens tokens).parse .standard).1 with
      | .error error => .error ⟨.parse, error.message, error.offset, some source⟩
      | .ok tree =>
        match tree.eval vars with
        | .error error => .error ⟨error.stage, error.message, error.offset, some source⟩
        | .ok value => .ok value := by
  rw [evaluateWith, evaluateIn, parseReporting, Expr.ofSource_eq, h]
  cases hparse : ((TokenStream.ofTokens tokens).parse .standard).1 with
  | error error => simp only [hparse]; rfl
  | ok tree => simp only [hparse]; rfl

/-- A diagnostic of a text comes from the scanner, or else from the parser, or else from the
evaluation of the tree. -/
theorem evaluateWith_error_cases {vars : Variables} {source : String} {diagnostic : Diagnostic}
    (h : evaluateWith vars source = .error diagnostic) :
    (∃ error, tokenize source = .error error ∧
      diagnostic = ⟨.lex, error.message, error.offset, some source⟩) ∨
    ∃ tokens, tokenize source = .ok tokens ∧
      ((∃ error, ((TokenStream.ofTokens tokens).parse .standard).1 = .error error ∧
        diagnostic = ⟨.parse, error.message, error.offset, some source⟩) ∨
      ∃ tree, ((TokenStream.ofTokens tokens).parse .standard).1 = .ok tree ∧
        ∃ error, tree.eval vars = .error error ∧
          diagnostic = ⟨error.stage, error.message, error.offset, some source⟩) := by
  cases htokens : tokenize source with
  | error error =>
    rw [evaluateWith, evaluateIn, parseReporting, Expr.ofSource_eq, htokens] at h
    cases h
    exact .inl ⟨error, rfl, rfl⟩
  | ok tokens =>
    refine .inr ⟨tokens, rfl, ?_⟩
    rw [evaluateWith_of_tokenize htokens] at h
    cases hparse : ((TokenStream.ofTokens tokens).parse .standard).1 with
    | error error =>
      rw [hparse] at h
      cases h
      exact .inl ⟨error, rfl, rfl⟩
    | ok tree =>
      simp only [hparse] at h
      cases heval : tree.eval vars with
      | error error =>
        rw [heval] at h
        cases h
        exact .inr ⟨tree, rfl, error, heval, rfl⟩
      | ok value =>
        rw [heval] at h
        cases h

/-- What a diagnostic of a text says of the text. -/
structure Diagnostic.Attributed (vars : Variables) (source : String) (diagnostic : Diagnostic) :
    Prop where
  /-- It holds the text. -/
  source_eq : diagnostic.source = some source
  /-- It points into the text, or right behind it. -/
  offset_le : diagnostic.offset ≤ source.length
  /-- It is of the scanner exactly if the text has no tokens. -/
  lex_iff : diagnostic.stage = .lex ↔ ∃ error, tokenize source = .error error
  /-- It then repeats the error of the scanner, which is found at a character. -/
  lex : ∀ error, tokenize source = .error error →
    diagnostic.message = error.message ∧ diagnostic.offset = error.offset ∧
      diagnostic.offset < source.length
  /-- It is of the parser exactly if the text has tokens that make no tree. -/
  parse_iff : diagnostic.stage = .parse ↔ ∃ tokens error, tokenize source = .ok tokens ∧
    ((TokenStream.ofTokens tokens).parse .standard).1 = .error error
  /-- It then repeats the error of the parser, which is found at a token. -/
  parse : ∀ tokens error, tokenize source = .ok tokens →
    ((TokenStream.ofTokens tokens).parse .standard).1 = .error error →
    diagnostic.message = error.message ∧ diagnostic.offset = error.offset ∧
      ∃ token ∈ tokens, token.offset = diagnostic.offset ∧
        (diagnostic.offset = source.length ↔ token.kind = .endOfInput)
  /-- An error of arithmetic points at the operator of the division. -/
  arithmetic : diagnostic.stage = .arithmetic → source.toList[diagnostic.offset]? = some '/'
  /-- An error of types repeats that of the tree, which is found where it says. -/
  type : diagnostic.stage = .type → ∃ tokens tree error, tokenize source = .ok tokens ∧
    ((TokenStream.ofTokens tokens).parse .standard).1 = .ok tree ∧ tree.eval vars = .error error ∧
      diagnostic.message = error.message ∧ diagnostic.offset = error.offset ∧ error.Located source

section Attribution

variable {vars : Variables} {source : String} {tokens : List Token}

/-- The diagnostic of a text without tokens is attributed as it should be. -/
theorem attributed_of_lexError {error : LexError} (h : tokenize source = .error error) :
    Diagnostic.Attributed vars source ⟨.lex, error.message, error.offset, some source⟩ where
  source_eq := rfl
  offset_le := Nat.le_of_lt (offset_lt_of_tokenize h)
  lex_iff := ⟨fun _ => ⟨error, h⟩, fun _ => rfl⟩
  lex := by
    intro error' h'
    rw [h] at h'
    cases h'
    exact ⟨rfl, rfl, offset_lt_of_tokenize h⟩
  parse_iff := by simp [h]
  parse := by simp [h]
  arithmetic := nofun
  type := nofun

/-- The diagnostic of a text whose tokens make no tree is attributed as it should be. -/
theorem attributed_of_parseError (h : tokenize source = .ok tokens) {error : ParseError}
    (hparse : ((TokenStream.ofTokens tokens).parse .standard).1 = .error error) :
    Diagnostic.Attributed vars source ⟨.parse, error.message, error.offset, some source⟩ := by
  obtain ⟨token, htoken, hoffset, hend⟩ := exists_token_of_parse h hparse
  exact {
    source_eq := rfl
    offset_le := hoffset ▸ (laidOut_of_tokenize h).offset_le htoken
    lex_iff := by simp [h]
    lex := by simp [h]
    parse_iff := ⟨fun _ => ⟨tokens, error, h, hparse⟩, fun _ => rfl⟩
    parse := by
      intro tokens' error' h' hparse'
      rw [h] at h'
      cases h'
      rw [hparse] at hparse'
      cases hparse'
      exact ⟨rfl, rfl, token, htoken, hoffset, hend⟩
    arithmetic := nofun
    type := nofun }

/-- The diagnostic of a tree without a value is attributed as it should be. -/
theorem attributed_of_evalError (h : tokenize source = .ok tokens) {tree : Expr}
    (hparse : ((TokenStream.ofTokens tokens).parse .standard).1 = .ok tree) {error : EvalError}
    (heval : tree.eval vars = .error error) :
    Diagnostic.Attributed vars source ⟨error.stage, error.message, error.offset, some source⟩ := by
  obtain ⟨node, hnode, hfault⟩ := Expr.exists_fault_of_eval heval
  have hlocated := (Expr.accuses_of_fault hfault).located h (stands_of_parse h hparse hnode)
  have hstage : error.stage ≠ .lex ∧ error.stage ≠ .parse := by
    cases error <;> exact ⟨nofun, nofun⟩
  exact {
    source_eq := rfl
    offset_le := hlocated.offset_le
    lex_iff := by simp [h, hstage.1]
    lex := by simp [h]
    parse_iff := by simp [h, hparse, hstage.2]
    parse := by
      intro tokens' error' h' hparse'
      rw [h] at h'
      cases h'
      rw [hparse] at hparse'
      cases hparse'
    arithmetic := by
      intro hkind
      cases error with
      | divisionByZero offset =>
        have hspells : Spells source offset Arithmetic.divide.symbol := hlocated
        exact hspells.getElem? rfl
      | _ => cases hkind
    type := fun _ => ⟨tokens, tree, error, h, hparse, heval, rfl, rfl, hlocated⟩ }

end Attribution

/-- Every diagnostic of a text points at what it is about. -/
theorem attributed_of_evaluateWith {vars : Variables} {source : String} {diagnostic : Diagnostic}
    (h : evaluateWith vars source = .error diagnostic) : diagnostic.Attributed vars source := by
  rcases evaluateWith_error_cases h with ⟨error, htokens, rfl⟩ |
    ⟨tokens, htokens, ⟨error, hparse, rfl⟩ | ⟨tree, hparse, error, heval, rfl⟩⟩
  · exact attributed_of_lexError htokens
  · exact attributed_of_parseError htokens hparse
  · exact attributed_of_evalError htokens hparse heval

/-- Two names are no numbers, and a comparison of them is attributed to the second. -/
theorem attributed_comparison_of_names : ∃ diagnostic,
    evaluateWith ∅ "a < b" = .error diagnostic ∧ diagnostic.stage = .type ∧
      diagnostic.offset = 4 ∧ diagnostic.Attributed ∅ "a < b" := by
  have htokens : (Scanner.ofText "a < b").tokens = .ok ([⟨.identifier, "a", 0⟩, ⟨.less, "<", 2⟩,
      ⟨.identifier, "b", 4⟩] ++ [⟨.endOfInput, "", 5⟩]) := by
    have hfirst : (Scanner.ofText "a < b").next =
        (.ok ⟨.identifier, "a", 0⟩, ⟨[' ', '<', ' ', 'b'], 1, false⟩) := by decide
    have hsecond : (⟨[' ', '<', ' ', 'b'], 1, false⟩ : Scanner).next =
        (.ok ⟨.less, "<", 2⟩, ⟨[' ', 'b'], 3, false⟩) := by decide
    have hthird : (⟨[' ', 'b'], 3, false⟩ : Scanner).next =
        (.ok ⟨.identifier, "b", 4⟩, ⟨[], 5, false⟩) := by decide
    rw [Scanner.tokens_of_next_ok rfl hfirst, Scanner.tokens_of_next_ok rfl hsecond,
      Scanner.tokens_of_next_ok rfl hthird, Scanner.tokens_nil]
    rfl
  have hparse : ((TokenStream.ofTokens ([⟨.identifier, "a", 0⟩, ⟨.less, "<", 2⟩,
      ⟨.identifier, "b", 4⟩] ++ [⟨.endOfInput, "", 5⟩])).parse .standard).1 =
      .ok (.binary (.comparison .less) (.identifier "a" 0) (.identifier "b" 4) 2) := by
    have leaf (name : String) (pos : Nat) :
        Derives (some 64) .unary 0 [⟨.identifier, name, pos⟩] (.identifier name pos) :=
      .primary (.identifier rfl)
    have hchain := @Derives.chain (some 64) 0 [⟨.identifier, "a", 0⟩] [⟨.identifier, "b", 4⟩]
      ⟨.less, "<", 2⟩ (.comparison .less) _ _ rfl ((leaf "a" 0).level 3) ((leaf "b" 4).level 4)
    have hleaf (name : String) (pos : Nat) : (Expr.identifier name pos).BinariesWithin 256 :=
      Expr.binariesWithin_of_children_eq_nil rfl
    rw [TokenStream.ofTokens_append_end (by decide) rfl, TokenStream.parse_eq_ok_iff,
      Parse.reads_conditional_iff]
    refine ⟨.plain (hchain.level_of_le (by decide)), ?_⟩
    simp [Limits.Admits, Limits.standard, Expr.binariesWithin_binary, Expr.longestPath, hleaf]
  have hevaluate : evaluateWith ∅ "a < b" = .error ⟨.type,
      (EvalError.comparisonOperands .less .string .string 4).message, 4, some "a < b"⟩ := by
    simp only [evaluateWith, evaluateIn, parseReporting, Expr.ofSource_eq, tokenize, htokens, hparse]
    rfl
  exact ⟨_, hevaluate, rfl, rfl, attributed_of_evaluateWith hevaluate⟩

end ScalarExpr
