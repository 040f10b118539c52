import ScalarExpr.Diagnostic
import ScalarExpr.Proofs.Expr.Dependence
import ScalarExpr.Proofs.Parsing.Source

/-!
# What the result of a text depends on

The names in the tree of a text are those of its identifier tokens. So a binding can only matter for
the value or the diagnostic of a text if its name is one of them, and then only if it is looked up.
-/

namespace ScalarExpr

/-- A name in a tree is that of an identifier among the tokens of the tree. -/
theorem Derives.exists_identifier {nesting : Option Nat} {form : Form} {opened : Nat}
    {tokens : List Token} {e : Expr} (h : Derives nesting form opened tokens e) :
    ∀ name ∈ e.names, ∃ token ∈ tokens, token.kind = .identifier ∧ token.text = name := by
  induction h with
  | number | text =>
    intro name hname
    exact absurd hname List.not_mem_nil
  | identifier hkind =>
    intro name hname
    exact ⟨_, List.mem_singleton_self _, hkind, (List.mem_singleton.mp hname).symm⟩
  | parentheses _ _ _ _ ih =>
    intro name hname
    obtain ⟨token, htoken, hidentifier⟩ := ih name hname
    exact ⟨token, by simp [htoken], hidentifier⟩
  | primary _ ih | operand _ _ ih | tighter _ _ ih | plain _ ih => exact ih
  | prefixOp _ _ _ ih =>
    intro name hname
    obtain ⟨token, htoken, hidentifier⟩ := ih name hname
    exact ⟨token, List.mem_cons_of_mem _ htoken, hidentifier⟩
  | chain _ _ _ ihLeft ihRight =>
    intro name hname
    rcases List.mem_append.mp hname with hname | hname
    · obtain ⟨token, htoken, hidentifier⟩ := ihLeft name hname
      exact ⟨token, by simp [htoken], hidentifier⟩
    · obtain ⟨token, htoken, hidentifier⟩ := ihRight name hname
      exact ⟨token, by simp [htoken], hidentifier⟩
  | choice _ _ _ _ _ _ ih ihTrue ihFalse =>
    intro name hname
    simp only [Expr.names, List.mem_append] at hname
    rcases hname with hname | hname | hname
    · obtain ⟨token, htoken, hidentifier⟩ := ih name hname
      exact ⟨token, by simp [htoken], hidentifier⟩
    · obtain ⟨token, htoken, hidentifier⟩ := ihTrue name hname
      exact ⟨token, by simp [htoken], hidentifier⟩
    · obtain ⟨token, htoken, hidentifier⟩ := ihFalse name hname
      exact ⟨token, by simp [htoken], hidentifier⟩

/-- Bindings matter for a text only where an identifier of the text has their name. -/
theorem evaluateWith_eq_of_alike {vars vars' : Variables} {source : String}
    (halike : ∀ tokens, tokenize source = .ok tokens → ∀ token ∈ tokens,
      token.kind = .identifier → vars.Alike vars' token.text) :
    evaluateWith vars' source = evaluateWith vars source := by
  rw [evaluateWith, evaluateWith, evaluateIn, evaluateIn, parseReporting]
  cases htree : Expr.ofSource source with
  | error error => rfl
  | ok e =>
    obtain ⟨words, htokens, hderives⟩ := derives_of_ofSource htree
    have hnames : ∀ name ∈ e.lookups vars, vars.Alike vars' name := by
      intro name hname
      obtain ⟨token, htoken, hkind, rfl⟩ :=
        hderives.exists_identifier name (e.lookups_subset_names vars hname)
      exact halike _ htokens token (List.mem_append_left _ htoken) hkind
    simp only [(Expr.Spares.refl vars e).eval_eq hnames]

/-- A result depends on nothing but what is evaluated: not on branches that are not taken, not on
names that are not looked up, and not on whether a name is unbound or bound to itself. Evaluating a
text without variables is evaluating it with none bound, and names that are not among its identifiers
never matter. -/
theorem result_depends_on_evaluated :
    (∀ (vars vars' : Variables) (e e' : Expr), Expr.Spares vars e e' →
      (∀ name ∈ e.lookups vars, vars.Alike vars' name) → e'.eval vars' = e.eval vars) ∧
    (∀ source, evaluate source = evaluateWith ∅ source) ∧
    ∀ (vars vars' : Variables) (source : String),
      (∀ tokens, tokenize source = .ok tokens → ∀ token ∈ tokens, token.kind = .identifier →
        vars.Alike vars' token.text) →
      evaluateWith vars' source = evaluateWith vars source :=
  ⟨fun _ _ _ _ hspares halike => hspares.eval_eq halike, evaluate_eq_evaluateWith,
    fun _ _ _ halike => evaluateWith_eq_of_alike halike⟩

/-- A comparison of names is refused alike whatever the branch behind it says and whether or not its
names are bound to themselves. The value of a name does not depend on another one. -/
theorem comparison_depends_on_evaluated :
    let vars : Variables := (∅ : Variables).insert "a" (.boolean true)
    let vars' : Variables := (vars.insert "b" (.string "b")).insert "d" .null
    let comparison : Expr := .binary (.comparison .less) (.identifier "b" 4) (.identifier "c" 8) 6
    (Expr.conditional (.identifier "a" 0) comparison (.identifier "b" 12)).eval vars =
        .error (.comparisonOperands .less .string .string 8) ∧
      (Expr.conditional (.identifier "a" 0) comparison (.identifier "d" 99)).eval vars' =
        .error (.comparisonOperands .less .string .string 8) ∧
      evaluateWith vars "b" = evaluateWith ∅ "b" := by
  intro vars vars' comparison
  have hrefused : (Expr.conditional (.identifier "a" 0) comparison (.identifier "b" 12)).eval vars =
      .error (.comparisonOperands .less .string .string 8) := by decide
  obtain ⟨htrees, -, htexts⟩ := result_depends_on_evaluated
  refine ⟨hrefused, ?_, htexts ∅ vars "b" ?_⟩
  · rw [← hrefused]
    refine htrees vars vars' _ _ (.conditional .identifier (fun _ _ _ => .refl vars _) ?_) ?_
    · intro value hvalue hfalse
      cases hvalue
      cases hfalse
    · have hlookups : (Expr.conditional (.identifier "a" 0) comparison (.identifier "b" 12)).lookups
          vars = ["a", "b", "c"] := by decide
      rw [hlookups]
      decide
  · have htokens : tokenize "b" = .ok [⟨.identifier, "b", 0⟩, ⟨.endOfInput, "", 1⟩] := by
      decide +kernel
    rw [htokens]
    rintro tokens ⟨⟩
    decide

end ScalarExpr
