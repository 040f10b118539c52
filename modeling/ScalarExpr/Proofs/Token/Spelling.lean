import ScalarExpr.Proofs.Token.Layout
import ScalarExpr.Proofs.Expr.Operators

/-!
# What tokens spell

The text of a token is what its kind says, and it stands at the token's offset. So an operator's
token leads back to the operator's symbol in the text.

The tokens of a text stand one behind the other, and all but the end of input before its end. An
error is found before the end, too.
-/

namespace ScalarExpr

/-- A symbol stands in a text at an offset. -/
def Spells (source : String) (offset : Nat) (symbol : String) : Prop :=
  ∃ before after, source.toList = before ++ (symbol.toList ++ after) ∧ before.length = offset

/-- What stands in a text does not start behind its end. -/
theorem Spells.offset_le {source symbol : String} {offset : Nat} (h : Spells source offset symbol) :
    offset ≤ source.length := by
  obtain ⟨before, after, hsplit, rfl⟩ := h
  rw [← String.length_toList, hsplit, List.length_append]
  omega

/-- The first character of a symbol stands at its offset. -/
theorem Spells.getElem? {source symbol : String} {offset : Nat} {c : Char} {others : List Char}
    (h : Spells source offset symbol) (hsymbol : symbol.toList = c :: others) :
    source.toList[offset]? = some c := by
  obtain ⟨before, after, hsplit, rfl⟩ := h
  rw [hsplit, hsymbol]
  simp

/-- The lexeme of a prefix operator is its symbol. -/
theorem UnaryOp.symbol_of_lexeme {op : UnaryOp} {kind : TokenKind} {chars : List Char}
    (h : Lexeme kind chars) (hop : kind = op.kind) : chars = op.symbol.toList := by
  rw [← ofKind?_eq_some_iff] at hop
  cases h with
  | identifier | whole | decimal | string => cases hop
  | symbol hmem =>
    have hall : ∀ entry ∈ symbols, ∀ op ∈ UnaryOp.ofKind? entry.2,
        entry.1 = op.symbol.toList := by
      decide
    exact hall _ hmem op hop

/-- The lexeme of a binary operator is its symbol. -/
theorem BinaryOp.symbol_of_lexeme {op : BinaryOp} {kind : TokenKind} {chars : List Char}
    (h : Lexeme kind chars) (hop : kind = op.kind) : chars = op.symbol.toList := by
  rw [← ofKind?_eq_some_iff] at hop
  cases h with
  | identifier | whole | decimal | string => cases hop
  | symbol hmem =>
    have hall : ∀ entry ∈ symbols, ∀ op ∈ BinaryOp.ofKind? entry.2,
        entry.1 = op.symbol.toList := by
      decide
    exact hall _ hmem op hop

/-- The tokens that are taken off a text are lexemes, but for the end of input. -/
theorem Munches.lexeme {position : Nat} {text : List Char} {result : Except LexError (List Token)}
    (h : Munches position text result) {tokens : List Token} (hresult : result = .ok tokens) :
    ∀ token ∈ tokens, token.kind ≠ .endOfInput → Lexeme token.kind token.text.toList := by
  induction h generalizing tokens with
  | stop =>
    cases hresult
    intro token htoken hkind
    rw [List.mem_singleton.mp htoken] at hkind
    exact absurd rfl hkind
  | blank _ _ ih => exact ih hresult
  | @token position first text taken rest kind result _ _ hlongest _ _ ih =>
    cases result with
    | error error => cases hresult
    | ok others =>
      cases hresult
      refine List.forall_mem_cons.mpr ⟨fun _ => ?_, ih rfl⟩
      rw [String.toList_ofList]
      exact hlongest.1
  | secondPoint | unterminated | unexpected => cases hresult

/-- An error is found at a character of the text. -/
theorem Munches.error_offset_lt {position : Nat} {text : List Char}
    {result : Except LexError (List Token)} (h : Munches position text result) {error : LexError}
    (hresult : result = .error error) : error.offset < position + text.length := by
  induction h with
  | stop => cases hresult
  | blank _ _ ih =>
    have := ih hresult
    rw [List.length_cons]
    omega
  | @token position first text taken rest kind result _ hsplit _ _ _ ih =>
    cases result with
    | ok others => cases hresult
    | error found =>
      have := ih hresult
      rw [← hsplit, List.length_append]
      omega
  | @secondPoint position first text taken rest _ hsplit _ hpoint =>
    cases hresult
    obtain ⟨others, rfl⟩ := List.head?_eq_some_iff.mp hpoint
    rw [← hsplit, List.length_append, List.length_cons, LexError.offset]
    omega
  | unterminated | unexpected =>
    cases hresult
    simp [LexError.offset]

/-- A token ends no later than another starts. -/
def Token.EndsBefore (a b : Token) : Prop := a.offset + a.length ≤ b.offset

/-- A token ends before all that start after a later one. -/
instance : Trans Token.EndsBefore Token.EndsBefore Token.EndsBefore where
  trans := by
    intro a b c hab hbc
    unfold Token.EndsBefore at *
    omega

namespace LaidOut

variable {source : List Char} {start : Nat} {tokens : List Token}

/-- Every token ends before the later ones start. -/
theorem pairwise (h : LaidOut source start tokens) : tokens.Pairwise Token.EndsBefore :=
  (h.gaps.imp fun _ _ hgap => hgap.1 : tokens.IsChain Token.EndsBefore).pairwise

/-- Tokens start one behind the other. -/
theorem offsets_pairwise_lt (h : LaidOut source start tokens) :
    (tokens.map Token.offset).Pairwise (· < ·) := by
  have hpairwise := h.pairwise
  obtain ⟨words, rfl, hwords⟩ := h.ends
  obtain ⟨hbefore, -, hlast⟩ := List.pairwise_append.mp hpairwise
  have hlt {a b : Token} (ha : a ∈ words) (hends : a.EndsBefore b) : a.offset < b.offset := by
    have hlength := (hwords a ha).2
    unfold Token.EndsBefore at hends
    omega
  refine List.pairwise_map.mpr (List.pairwise_append.mpr ⟨?_, List.pairwise_singleton _ _, ?_⟩)
  · exact hbefore.imp_of_mem fun ha _ hends => hlt ha hends
  · exact fun a ha b hb => hlt ha (hlast a ha b hb)

/-- A token other than the end of input lies before it. -/
theorem offset_lt (h : LaidOut source start tokens) {token : Token} (htoken : token ∈ tokens)
    (hkind : token.kind ≠ .endOfInput) : 0 < token.length ∧ token.offset < source.length := by
  obtain ⟨words, rfl, hwords⟩ := h.ends
  rcases List.mem_append.mp htoken with hword | hstop
  · have hbefore := (List.pairwise_append.mp h.pairwise).2.2 token hword _
      (List.mem_singleton_self _)
    have hlength := (hwords token hword).2
    simp only [Token.EndsBefore] at hbefore
    omega
  · rw [List.mem_singleton.mp hstop] at hkind
    exact absurd rfl hkind

/-- No token starts behind the end of the text. -/
theorem offset_le (h : LaidOut source start tokens) {token : Token} (htoken : token ∈ tokens) :
    token.offset ≤ source.length := by
  by_cases hkind : token.kind = .endOfInput
  · obtain ⟨words, rfl, hwords⟩ := h.ends
    rcases List.mem_append.mp htoken with hword | hstop
    · exact absurd hkind (hwords token hword).1
    · rw [List.mem_singleton.mp hstop]
  · exact Nat.le_of_lt (h.offset_lt htoken hkind).2

end LaidOut

section Source

variable {source : String} {tokens : List Token} {token : Token}

/-- The tokens of a text lie over it. -/
theorem laidOut_of_tokenize (h : tokenize source = .ok tokens) :
    LaidOut source.toList 0 tokens :=
  (Munches.iff_tokenize.mpr h).laidOut [] rfl rfl

/-- A token is spelled at its offset. -/
theorem spells_of_mem (h : tokenize source = .ok tokens) (htoken : token ∈ tokens) :
    Spells source token.offset token.text := by
  have hlaid := laidOut_of_tokenize h
  refine ⟨source.toList.take token.offset,
    (source.toList.drop token.offset).drop token.length, ?_, ?_⟩
  · rw [hlaid.slices token htoken, List.take_append_drop, List.take_append_drop]
  · rw [List.length_take]
    exact Nat.min_eq_left (hlaid.offset_le htoken)

/-- Where all lexemes of a token's kind are one symbol, this is spelled at the token's offset. -/
theorem spells_of_lexeme (h : tokenize source = .ok tokens) (htoken : token ∈ tokens)
    (hkind : token.kind ≠ .endOfInput) {symbol : String}
    (hsymbol : ∀ chars, Lexeme token.kind chars → chars = symbol.toList) :
    Spells source token.offset symbol := by
  have hlexeme := (Munches.iff_tokenize.mpr h).lexeme rfl token htoken hkind
  have hspelled := spells_of_mem h htoken
  rwa [Spells, hsymbol _ hlexeme] at hspelled

/-- A prefix operator is spelled at the offset of its token. -/
theorem spells_unary (h : tokenize source = .ok tokens) (htoken : token ∈ tokens) {op : UnaryOp}
    (hop : token.kind = op.kind) : Spells source token.offset op.symbol :=
  spells_of_lexeme h htoken (UnaryOp.ne_endOfInput hop) fun _ hlexeme =>
    UnaryOp.symbol_of_lexeme hlexeme hop

/-- A binary operator is spelled at the offset of its token. -/
theorem spells_binary (h : tokenize source = .ok tokens) (htoken : token ∈ tokens) {op : BinaryOp}
    (hop : token.kind = op.kind) : Spells source token.offset op.symbol :=
  spells_of_lexeme h htoken (BinaryOp.ne_endOfInput hop) fun _ hlexeme =>
    BinaryOp.symbol_of_lexeme hlexeme hop

end Source

end ScalarExpr
