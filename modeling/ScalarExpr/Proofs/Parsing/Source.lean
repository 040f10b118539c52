import ScalarExpr.Expr.Source
import ScalarExpr.Proofs.Parsing.Positions
import ScalarExpr.Proofs.Token.Spelling

/-!
# The tree of a text

The tokens of a text are read as a stream that ends where the text does. So the trees of texts are
those that the grammar gives to their tokens.
-/

namespace ScalarExpr

section Source

variable {source : String} {tokens : List Token}

/-- The tokens of a text are read as a stream that ends where the text does. -/
theorem ofTokens_of_tokenize (h : tokenize source = .ok tokens) :
    ∃ words, tokens = words ++ [⟨.endOfInput, "", source.length⟩] ∧
      (∀ token ∈ words, token.kind ≠ .endOfInput) ∧
      TokenStream.ofTokens tokens = ⟨words, source.length⟩ := by
  obtain ⟨words, rfl, hwords⟩ := (laidOut_of_tokenize h).ends
  have hkinds : ∀ token ∈ words, token.kind ≠ .endOfInput :=
    fun token htoken => (hwords token htoken).1
  exact ⟨words, rfl, hkinds, TokenStream.ofTokens_append_end hkinds rfl⟩

/-- The tree of a text is that of its tokens. -/
theorem Expr.ofSource_eq (source : String) : Expr.ofSource source =
    match tokenize source with
    | .error error => .error (.lex error)
    | .ok tokens =>
      match ((TokenStream.ofTokens tokens).parse .standard).1 with
      | .error error => .error (.parse error)
      | .ok tree => .ok tree := rfl

/-- The tree of a text is that of its tokens before the end of input. -/
theorem Expr.ofSource_of_tokenize {words : List Token} {stop : Nat}
    (h : tokenize source = .ok (words ++ [⟨.endOfInput, "", stop⟩])) :
    Expr.ofSource source = ((⟨words, stop⟩ : TokenStream).parse .standard).1.mapError .parse := by
  obtain ⟨words', hwords, -, hstream⟩ := ofTokens_of_tokenize h
  obtain ⟨rfl, hstop⟩ := List.append_inj' hwords rfl
  cases hstop
  rw [ofSource_eq, h]
  simp only [hstream]
  cases ((⟨words, source.length⟩ : TokenStream).parse .standard).1 <;> rfl

/-- The tokens of a text that has a tree are parsed to this tree. -/
theorem parse_of_ofSource {e : Expr} (h : Expr.ofSource source = .ok e) :
    ∃ words, tokenize source = .ok (words ++ [⟨.endOfInput, "", source.length⟩]) ∧
      ((⟨words, source.length⟩ : TokenStream).parse .standard).1 = .ok e := by
  rw [Expr.ofSource_eq] at h
  cases htokens : tokenize source with
  | error error =>
    rw [htokens] at h
    cases h
  | ok tokens =>
    simp only [htokens] at h
    obtain ⟨words, rfl, -, hstream⟩ := ofTokens_of_tokenize htokens
    rw [hstream] at h
    cases hparse : ((⟨words, source.length⟩ : TokenStream).parse .standard).1 with
    | error error =>
      rw [hparse] at h
      cases h
    | ok tree =>
      rw [hparse] at h
      cases h
      exact ⟨words, rfl, hparse⟩

/-- The tokens of a text that has a tree derive this tree. -/
theorem derives_of_ofSource {e : Expr} (h : Expr.ofSource source = .ok e) :
    ∃ words, tokenize source = .ok (words ++ [⟨.endOfInput, "", source.length⟩]) ∧
      Derives (some 64) .conditional 0 words e := by
  obtain ⟨words, htokens, hparse⟩ := parse_of_ofSource h
  rw [TokenStream.parse_eq_ok_iff, Parse.reads_conditional_iff] at hparse
  exact ⟨words, htokens, hparse.1⟩

end Source

end ScalarExpr
