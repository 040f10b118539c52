import ScalarExpr.Proofs.Diagnostic.Respacing
import ScalarExpr.Proofs.Parsing.Openings
import ScalarExpr.Proofs.Parsing.Precedence
import ScalarExpr.Proofs.Token.Enclosed

/-!
# Parentheses around a text

A text in parentheses has the tree of the text, and evaluates as the text does, with all offsets one
character further on. The parentheses are a construct around everything else. So they are refused
exactly if inside them a construct is opened that already was the last one allowed.
-/

namespace ScalarExpr

/-- Tokens that make a tree are parsed to it in parentheses, too, unless one of them opens a 64th
construct. -/
theorem TokenStream.parse_enclosed {words : List Token} {left right : Token} {stop : Nat} {e : Expr}
    (hleft : left.kind = .leftParen) (hright : right.kind = .rightParen)
    (h : Derives (some 64) .conditional 0 words e) (hadmits : Limits.standard.Admits e) :
    let answer := ((⟨left :: (words ++ [right]), stop⟩ : TokenStream).parse .standard).1
    (¬ OpensAt 64 words → answer = .ok e) ∧
      (OpensAt 64 words → ∃ offset, answer = .error (.tooDeep offset)) := by
  intro answer
  have hanswer : answer = .ok e ↔ ¬ OpensAt 64 words := by
    rw [TokenStream.parse_eq_ok_iff, Parse.reads_conditional_iff, ← h.iff_not_opensAt,
      ← Derives.iff_enclosed hleft hright (h.unbounded 0)]
    exact and_iff_left hadmits
  refine ⟨hanswer.mpr, fun hopens => ?_⟩
  have hroom : ∀ bound ∈ (none : Option Nat), 0 < bound := nofun
  have henclosed : Derives none .conditional 0 (left :: (words ++ [right])) e :=
    .plain (Derives.level (.primary (.parentheses hleft hright hroom (h.unbounded 1))) 0)
  rcases @TokenStream.parse_of_derives .standard ⟨left :: (words ++ [right]), stop⟩ e henclosed with
    hok | ⟨offset, herror, -⟩
  · exact absurd hopens (hanswer.mp hok)
  · exact ⟨offset, herror⟩

/-- Texts whose trees differ by moving evaluate to the same value, or to the same error, moved. -/
theorem evaluateWith_of_relocate {source source' : String} {e : Expr} {f : Nat → Nat}
    (h : Expr.ofSource source = .ok e) (h' : Expr.ofSource source' = .ok (e.relocate f))
    (vars : Variables) :
    evaluateWith vars source' = (evaluateWith vars source).mapError fun diagnostic =>
      { diagnostic with offset := f diagnostic.offset, source := some source' } := by
  simp only [evaluateWith, evaluateIn, parseReporting, h, h', Expr.eval_relocate]
  cases e.eval vars with
  | ok value => rfl
  | error error =>
    simp [Except.mapError, Diagnostic.ofEvalError, Diagnostic.withSource, Diagnostic.new,
      EvalError.stage_relocate]

/-- A text that has a tree has this tree in parentheses, too, one character further on, and evaluates to
the same value or to the same error, one character further on. Only where it opens a 64th construct on
its own are the parentheses one too many. -/
theorem ofSource_enclosed {source : String} {e : Expr} (h : Expr.ofSource source = .ok e) :
    let enclosed := "(" ++ source ++ ")"
    ∃ words, tokenize source = .ok (words ++ [⟨.endOfInput, "", source.length⟩]) ∧
      (OpensAt 64 words → ∃ offset, Expr.ofSource enclosed = .error (.parse (.tooDeep offset))) ∧
      (¬ OpensAt 64 words → Expr.ofSource enclosed = .ok (e.relocate (· + 1)) ∧
        ∀ vars, evaluateWith vars enclosed =
          (evaluateWith vars source).mapError fun diagnostic =>
            { diagnostic with offset := diagnostic.offset + 1, source := some enclosed }) := by
  intro enclosed
  obtain ⟨words, htokens, hparse⟩ := parse_of_ofSource h
  obtain ⟨words', stop, hwords, henclosed⟩ := tokenize_enclosed htokens
  obtain ⟨rfl, hstop⟩ := List.append_inj' hwords rfl
  cases hstop
  have hmoved : ((⟨words.map (Token.relocate (· + 1)), source.length + 1⟩ : TokenStream).parse
      .standard).1 = .ok (e.relocate (· + 1)) := by
    rw [TokenStream.parse_relocate (· + 1), hparse]
    rfl
  rw [TokenStream.parse_eq_ok_iff, Parse.reads_conditional_iff] at hmoved
  have hanswer := Expr.ofSource_of_tokenize henclosed
  obtain ⟨hok, hdeep⟩ := @TokenStream.parse_enclosed _ ⟨.leftParen, "(", 0⟩
    ⟨.rightParen, ")", source.length + 1⟩ (source.length + 2) _ rfl rfl hmoved.1 hmoved.2
  rw [opensAt_relocate] at hok hdeep
  refine ⟨words, htokens, fun hopens => ?_, fun hopens => ?_⟩
  · obtain ⟨offset, herror⟩ := hdeep hopens
    rw [hanswer, herror]
    exact ⟨offset, rfl⟩
  · have htree : Expr.ofSource enclosed = .ok (e.relocate (· + 1)) := by
      rw [hanswer, hok hopens]
      rfl
    exact ⟨htree, evaluateWith_of_relocate h htree⟩

/-- A negation is the same negation in parentheses, and is refused there one character further on. A
negation of a negation and so on, 64 in all, is too deep in parentheses. -/
theorem ofSource_enclosed_negations :
    (Expr.ofSource "-a" = .ok (.unary .minus (.identifier "a" 1) 0) ∧
      Expr.ofSource "(-a)" = .ok (.unary .minus (.identifier "a" 2) 1) ∧
      ∀ vars, evaluateWith vars "(-a)" = (evaluateWith vars "-a").mapError fun diagnostic =>
        { diagnostic with offset := diagnostic.offset + 1, source := some "(-a)" }) ∧
    let deepest := String.ofList (List.replicate 64 '-' ++ ['a'])
    let tree := (List.range 64).foldr (fun pos e => .unary .minus e pos) (.identifier "a" 64)
    Expr.ofSource deepest = .ok tree ∧
      ∃ offset, Expr.ofSource ("(" ++ deepest ++ ")") = .error (.parse (.tooDeep offset)) := by
  refine ⟨?_, ?_⟩
  · have hsource : Expr.ofSource "-a" = .ok (.unary .minus (.identifier "a" 1) 0) := by decide +kernel
    have hderives (bound : Nat) (hbound : 0 < bound) : Derives (some bound) .conditional 0
        [⟨.minus, "-", 0⟩, ⟨.identifier, "a", 1⟩] (.unary .minus (.identifier "a" 1) 0) := by
      have hroom : ∀ limit ∈ some bound, 0 < limit := by
        rintro limit ⟨⟩
        exact hbound
      exact .plain (Derives.level (@Derives.prefixOp _ _ ⟨.minus, "-", 0⟩ _ _ _ rfl hroom
        (.primary (@Derives.identifier _ _ ⟨.identifier, "a", 1⟩ rfl))) 0)
    obtain ⟨words, htokens, -, henclosed⟩ := ofSource_enclosed hsource
    have hwords : tokenize "-a" = .ok ([⟨.minus, "-", 0⟩, ⟨.identifier, "a", 1⟩] ++
        [⟨.endOfInput, "", 2⟩]) := by
      decide +kernel
    obtain ⟨rfl, -⟩ := List.append_inj' (Except.ok.inj (htokens.symm.trans hwords)) rfl
    have hnone := (hderives 64 (by decide)).iff_not_opensAt.mp (hderives 63 (by decide))
    obtain ⟨htree, hvalue⟩ := henclosed hnone
    exact ⟨hsource, htree, hvalue⟩
  · intro deepest tree
    have hsource : Expr.ofSource deepest = .ok tree := by decide +kernel
    obtain ⟨words, htokens, hdeep, -⟩ := ofSource_enclosed hsource
    let signs (count : Nat) : List Token := (List.range count).map fun pos => ⟨.minus, "-", pos⟩
    have hwords : tokenize deepest = .ok ((signs 64 ++ [⟨.identifier, "a", 64⟩]) ++
        [⟨.endOfInput, "", 65⟩]) := by
      decide +kernel
    obtain ⟨rfl, -⟩ := List.append_inj' (Except.ok.inj (htokens.symm.trans hwords)) rfl
    -- the last of the signs stands where 63 constructs are open already
    have hopens : OpensAt 64 (signs 64 ++ [⟨.identifier, "a", 64⟩]) :=
      ⟨signs 63, ⟨.minus, "-", 63⟩, [⟨.identifier, "a", 64⟩],
        .due (List.replicate 63 .prefixOp), by decide, by decide, .inr ⟨.minus, rfl⟩, rfl⟩
    exact ⟨hsource, hdeep hopens⟩

end ScalarExpr
