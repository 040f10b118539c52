import ScalarExpr.Diagnostic
import ScalarExpr.Proofs.Parsing.Account
import ScalarExpr.Proofs.Parsing.Leaf

/-!
# Strings are verbatim

What stands between the quotes of a string is its value, whatever it is. The scanner takes the
characters up to the next quote of the same kind, the contents of the token are found by their bytes,
and the parser and the evaluation hand them on. Operators, quotes of the other kind, backslashes, line
breaks and names are characters there as any others are.
-/

namespace ScalarExpr

section Source

variable {source : String} {tokens : List Token} {token : Token} {e node : Expr}

/-- The result of a text that has a tree is that of the tree. -/
theorem evaluateWith_of_ofSource (h : Expr.ofSource source = .ok e) (vars : Variables) :
    evaluateWith vars source =
      match e.eval vars with
      | .error error => .error ⟨error.stage, error.message, error.offset, some source⟩
      | .ok value => .ok value := by
  rw [evaluateWith, evaluateIn, parseReporting, h]
  rfl

/-- The result of a text that has no tree is the reason for this. -/
theorem evaluateWith_of_ofSource_error {error : SourceError} (h : Expr.ofSource source = .error error)
    (vars : Variables) :
    evaluateWith vars source = .error ⟨error.stage, error.message, error.offset, some source⟩ := by
  rw [evaluateWith, evaluateIn, parseReporting, h]
  rfl

/-- A string is spelled as its contents between two quotes of one kind. -/
theorem Token.quoted_of_tokenize (h : tokenize source = .ok tokens) (htoken : token ∈ tokens)
    (hkind : token.kind = .string) :
    ∃ quote contents, IsQuote quote ∧ quote ∉ contents.toList ∧ token.contents? = some contents ∧
      token.text = String.singleton quote ++ contents ++ String.singleton quote := by
  have hlexeme := (Munches.iff_tokenize.mpr h).lexeme rfl token htoken (by simp [hkind])
  rw [hkind] at hlexeme
  obtain ⟨quote, contents, hquote, hcontents, hchars⟩ := hlexeme.quoted
  refine ⟨quote, String.ofList contents, hquote, by rwa [String.toList_ofList],
    contents?_of_quoted hkind hchars, String.toList_injective ?_⟩
  rw [hchars]
  simp

/-- Where a node other than a conditional stands in a text, a token is spelled that writes the node. -/
theorem exists_written_of_ofSource (h : Expr.ofSource source = .ok e) (hnode : node ∈ e.subtrees)
    (hconditional : node.isConditional = false) :
    ∃ token : Token, Spells source node.pos token.text ∧ node.Written source token := by
  obtain ⟨words, htokens, hderives⟩ := derives_of_ofSource h
  have hrepeats := hderives.repeats
  have hmem : node ∈ e.inOrder :=
    e.inOrder_perm.mem_iff.mpr (List.mem_filter.mpr ⟨hnode, by simp [hconditional]⟩)
  obtain ⟨i, hi, rfl⟩ := List.getElem_of_mem hmem
  have hi' := hrepeats.length_eq ▸ hi
  have hrepeat := hrepeats.get hi hi'
  simp only [List.get_eq_getElem] at hrepeat
  have htoken := List.mem_append_left [⟨.endOfInput, "", source.length⟩]
    (List.mem_filter.mp (List.getElem_mem hi')).1
  exact ⟨_, hrepeat.pos_eq ▸ spells_of_mem htokens htoken, hrepeat.written htokens htoken⟩

end Source

/-- Any characters between two quotes that are none of them evaluate to these characters. A string among
the tokens of a text is spelled as its contents between its quotes, which are not among the contents.
And where a tree of a text has a string, the text has its value between quotes. -/
theorem strings_verbatim :
    (∀ (vars : Variables) (quote : Char) (front contents back : String), IsQuote quote →
      quote ∉ contents.toList → IsGap front.toList → IsGap back.toList →
      evaluateWith vars
        (front ++ String.singleton quote ++ contents ++ String.singleton quote ++ back) =
          .ok (.string contents)) ∧
    (∀ source tokens, tokenize source = .ok tokens →
      ∀ token ∈ tokens, token.kind = .string →
        ∃ quote contents, IsQuote quote ∧ quote ∉ contents.toList ∧
          token.contents? = some contents ∧
          token.text = String.singleton quote ++ contents ++ String.singleton quote) ∧
    (∀ source e, Expr.ofSource source = .ok e → ∀ value pos, Expr.text value pos ∈ e.subtrees →
      ∃ quote, IsQuote quote ∧ quote ∉ value.toList ∧
        Spells source pos (String.singleton quote ++ value ++ String.singleton quote)) := by
  refine ⟨?_, ?_, ?_⟩
  · intro vars quote front contents back hquote hcontents hfront hback
    have htree := @ofSource_of_quoted
      (front ++ String.singleton quote ++ contents ++ String.singleton quote ++ back)
      _ _ quote contents.toList hquote hcontents hfront hback (by simp)
    rw [String.ofList_toList] at htree
    rw [evaluateWith_of_ofSource htree]
    rfl
  · intro source tokens htokens token htoken hkind
    exact Token.quoted_of_tokenize htokens htoken hkind
  · intro source e htree value pos hnode
    obtain ⟨token, hspells, -, quote, hquote, hvalue, htext⟩ :=
      exists_written_of_ofSource htree hnode rfl
    refine ⟨quote, hquote, hvalue, ?_⟩
    rw [Spells, htext] at hspells
    simpa [Spells, Expr.pos] using hspells

/-- Between double quotes stand a name that is bound, an operator, a single quote, a backslash, a line
break and a character of several bytes, all as they are. -/
theorem strings_verbatim_between_blanks :
    let source := " \"a + 'é\\\n\"\t"
    evaluateWith (NameMap.ofList [("a", .number (.integer 1))]) source =
        .ok (.string "a + 'é\\\n") ∧
      (∃ quote contents, IsQuote quote ∧ quote ∉ contents.toList ∧
        (⟨.string, "\"a + 'é\\\n\"", 1⟩ : Token).contents? = some contents ∧
        "\"a + 'é\\\n\"" = String.singleton quote ++ contents ++ String.singleton quote) ∧
      ∃ quote, IsQuote quote ∧ quote ∉ "a + 'é\\\n".toList ∧
        Spells source 1 (String.singleton quote ++ "a + 'é\\\n" ++ String.singleton quote) := by
  intro source
  have htokens : tokenize source =
      .ok [⟨.string, "\"a + 'é\\\n\"", 1⟩, ⟨.endOfInput, "", 12⟩] := by
    decide +kernel
  have htree : Expr.ofSource source = .ok (.text "a + 'é\\\n" 1) := by decide +kernel
  obtain ⟨hvalue, htoken, hnode⟩ := strings_verbatim
  exact ⟨hvalue _ '"' " " "a + 'é\\\n" "\t" (.inl rfl) (by decide) (by decide) (by decide),
    htoken source _ htokens _ List.mem_cons_self rfl,
    hnode source _ htree _ _ List.mem_cons_self⟩

end ScalarExpr
