import ScalarExpr.Proofs.Diagnostic.Attribution
import ScalarExpr.Proofs.Parsing.Relocation
import ScalarExpr.Proofs.Token.Respacing

/-!
# Respacing a text keeps its meaning

Blanks between tokens decide nothing but offsets. The tokens of a text that is respaced are those of
the text with their offsets moved, so their tree is moved, and with it the value or the error that the
tree evaluates to. The offset of an error is that of a token before and after.
-/

namespace ScalarExpr

/-- Two results are the same value, or errors of the same stage with the same message at tokens of the
same index. -/
inductive Corresponds (tokens tokens' : List Token) :
    Except Diagnostic Value → Except Diagnostic Value → Prop
  | ok (value : Value) : Corresponds tokens tokens' (.ok value) (.ok value)
  | error {diagnostic diagnostic' : Diagnostic} {index : Nat} {token token' : Token} :
    diagnostic'.stage = diagnostic.stage → diagnostic'.message = diagnostic.message →
    tokens[index]? = some token → token.offset = diagnostic.offset →
    tokens'[index]? = some token' → token'.offset = diagnostic'.offset →
    Corresponds tokens tokens' (.error diagnostic) (.error diagnostic')

/-- Tokens of the same kinds and texts differ by moving their offsets, if these are all different. -/
theorem exists_relocation {tokens tokens' : List Token}
    (hlabels : tokens'.map Token.label = tokens.map Token.label)
    (hoffsets : (tokens.map Token.offset).Nodup) :
    ∃ f : Nat → Nat, tokens' = tokens.map (Token.relocate f) := by
  induction tokens generalizing tokens' with
  | nil => exact ⟨id, List.map_eq_nil_iff.mp hlabels⟩
  | cons token tokens ih =>
    obtain ⟨token', tokens', rfl, hlabel, hlabels⟩ := List.map_eq_cons_iff.mp hlabels
    obtain ⟨hfresh, hoffsets⟩ := List.nodup_cons.mp hoffsets
    obtain ⟨f, rfl⟩ := ih hlabels hoffsets
    refine ⟨Function.update f token.offset token'.offset, List.cons_eq_cons.mpr ⟨?_, ?_⟩⟩
    · obtain ⟨kind, text, offset⟩ := token'
      cases hlabel
      simp [Token.relocate]
    · refine List.map_congr_left fun other hother => ?_
      have hne : other.offset ≠ token.offset :=
        fun heq => hfresh (heq ▸ List.mem_map_of_mem hother)
      simp [Token.relocate, Function.update_of_ne hne]

/-- The stage of an error does not depend on where it is. -/
theorem EvalError.stage_relocate (f : Nat → Nat) (error : EvalError) :
    (error.relocate f).stage = error.stage := by
  cases error <;> rfl

/-- An error of an evaluation is attributed to a token of the tree. -/
theorem EvalError.Accuses.exists_token {tokens : List Token} {error : EvalError} {node : Expr}
    (h : error.Accuses node) (hstands : Stands tokens node) :
    ∃ token ∈ tokens, token.offset = error.offset := by
  cases error with
  | unaryOperand op found offset =>
    obtain ⟨-, operand, rfl⟩ := h
    obtain ⟨token, htoken, hoffset, -⟩ := hstands
    exact ⟨token, htoken, hoffset⟩
  | comparisonOperands op a b offset =>
    obtain ⟨left, right, pos, rfl, rfl⟩ := h
    obtain ⟨before, token, after, rfl, -, -, other, hother, hright⟩ := hstands
    exact ⟨other, by simp [hother], hright⟩
  | arithmeticOperands op a b offset =>
    obtain ⟨-, left, right, rfl⟩ := h
    obtain ⟨before, token, after, rfl, hoffset, -⟩ := hstands
    exact ⟨token, by simp, hoffset⟩
  | nullOperand offset | divisionByZero offset =>
    obtain ⟨left, right, rfl⟩ := h
    obtain ⟨before, token, after, rfl, hoffset, -⟩ := hstands
    exact ⟨token, by simp, hoffset⟩

section Source

variable {source : String} {tokens : List Token}

/-- Tokens of a text that are moved are read to the same tree or error, moved. -/
theorem parse_relocate_of_tokenize (h : tokenize source = .ok tokens) (f : Nat → Nat)
    (limits : Limits) :
    ((TokenStream.ofTokens (tokens.map (Token.relocate f))).parse limits).1 =
      Parse.relocated f ((TokenStream.ofTokens tokens).parse limits).1 := by
  obtain ⟨words, rfl, hkinds, hstream⟩ := ofTokens_of_tokenize h
  have hmoved : ∀ token ∈ words.map (Token.relocate f), token.kind ≠ .endOfInput := by
    simpa using hkinds
  rw [List.map_append, List.map_singleton, TokenStream.ofTokens_append_end hmoved rfl, hstream]
  exact TokenStream.parse_relocate f limits words source.length

/-- Errors at a token and at the moved token correspond. -/
theorem Corresponds.of_mem {f : Nat → Nat} {token : Token} {stage : Stage} {message : String}
    {offset : Nat} (htoken : token ∈ tokens) (hoffset : token.offset = offset)
    (shown shown' : Option String) :
    Corresponds tokens (tokens.map (Token.relocate f)) (.error ⟨stage, message, offset, shown⟩)
      (.error ⟨stage, message, f offset, shown'⟩) := by
  obtain ⟨index, hindex⟩ := List.getElem?_of_mem htoken
  have hmoved : (tokens.map (Token.relocate f))[index]? = some (token.relocate f) := by
    rw [List.getElem?_map, hindex]
    rfl
  exact .error rfl rfl hindex hoffset hmoved (congrArg f hoffset)

/-- Texts whose tokens differ by moving have corresponding results. -/
theorem corresponds_of_relocate {source' : String} {f : Nat → Nat} (h : tokenize source = .ok tokens)
    (h' : tokenize source' = .ok (tokens.map (Token.relocate f))) (vars : Variables) :
    Corresponds tokens (tokens.map (Token.relocate f)) (evaluateWith vars source)
      (evaluateWith vars source') := by
  rw [evaluateWith_of_tokenize h, evaluateWith_of_tokenize h', parse_relocate_of_tokenize h]
  cases hparse : ((TokenStream.ofTokens tokens).parse .standard).1 with
  | error error =>
    obtain ⟨token, htoken, hoffset, -⟩ := exists_token_of_parse h hparse
    simp only [Parse.relocated, ParseError.message_relocate, ParseError.offset_relocate]
    exact .of_mem htoken hoffset _ _
  | ok tree =>
    simp only [Parse.relocated, Expr.eval_relocate]
    cases heval : tree.eval vars with
    | ok value => exact .ok value
    | error error =>
      obtain ⟨node, hnode, hfault⟩ := Expr.exists_fault_of_eval heval
      obtain ⟨token, htoken, hoffset⟩ :=
        (Expr.accuses_of_fault hfault).exists_token (stands_of_parse h hparse hnode)
      simp only [Except.mapError, EvalError.stage_relocate, EvalError.message_relocate,
        EvalError.offset_relocate]
      exact .of_mem htoken hoffset _ _

end Source

/-- A text that is respaced has the same tokens at other offsets, and under all variables the same
value, or an error of the same stage with the same message at the same token. -/
theorem evaluateWith_of_respaced {source source' : String} {tokens : List Token}
    (htokens : tokenize source = .ok tokens)
    (h : Respaced (tokens.dropLast.map Token.text) source') :
    ∃ tokens', tokenize source' = .ok tokens' ∧
      tokens'.map Token.label = tokens.map Token.label ∧
      ∀ vars, Corresponds tokens tokens' (evaluateWith vars source) (evaluateWith vars source') := by
  obtain ⟨tokens', htokens', hlabels⟩ := tokenize_of_respaced htokens h
  have hoffsets := (laidOut_of_tokenize htokens).offsets_pairwise_lt
  obtain ⟨f, rfl⟩ := exists_relocation hlabels (hoffsets.imp Nat.ne_of_lt)
  exact ⟨_, htokens', hlabels, corresponds_of_relocate htokens htokens'⟩

/-- A comparison that is written with wide blanks is refused at its right operand as before. -/
theorem corresponds_comparison :
    let source := "1<'a'"
    let source' := "\t1\u2003 <\n'a'"
    Respaced ["1", "<", "'a'"] source' ∧
      ∃ tokens tokens', tokenize source = .ok tokens ∧ tokenize source' = .ok tokens' ∧
        ∀ vars, Corresponds tokens tokens' (evaluateWith vars source)
          (evaluateWith vars source') := by
  intro source source'
  have htokens : tokenize source = .ok [⟨.number, "1", 0⟩, ⟨.less, "<", 1⟩, ⟨.string, "'a'", 2⟩,
      ⟨.endOfInput, "", 5⟩] := by
    decide +kernel
  have hlast : Spaced ["'a'"] ("'a'".toList ++ ([] ++ [])) :=
    .word (by decide) (by decide) (.done (by decide))
  have hmiddle : Spaced ["<", "'a'"] ("<".toList ++ (['\n'] ++ _)) :=
    .word (by decide) (by decide) hlast
  have hwords : Spaced ["1", "<", "'a'"] ("1".toList ++ (['\u2003', ' '] ++ _)) :=
    .word (by decide) (by decide) hmiddle
  have hrespaced : Respaced ["1", "<", "'a'"] source' :=
    ⟨['\t'], _, by decide, by decide, hwords⟩
  obtain ⟨tokens', htokens', -, hcorresponds⟩ := evaluateWith_of_respaced htokens hrespaced
  exact ⟨hrespaced, _, tokens', htokens, htokens', hcorresponds⟩

end ScalarExpr
