import ScalarExpr.Proofs.Command.Agreement
import ScalarExpr.Proofs.Json.ReadBack
import ScalarExpr.Proofs.Json.Scaled

/-!
# Output that is fed back

What a request puts out as JSON is the text of a scalar. As the only member of an object it is loaded
as a variable, which stands for the value that was put out.
-/

namespace ScalarExpr

/-- A name alone has the value that it is bound to. -/
theorem evaluateWith_name {vars : Variables} {value : Value}
    (h : vars.bindings = [("r", value)]) : evaluateWith vars "r" = .ok value := by
  have htokens : tokenize "r" = .ok [⟨.identifier, "r", 0⟩, ⟨.endOfInput, "", 1⟩] := by
    decide +kernel
  have hparse : ((TokenStream.ofTokens [⟨.identifier, "r", 0⟩, ⟨.endOfInput, "", 1⟩]).parse
      .standard).1 = .ok (.identifier "r" 0) := by
    decide +kernel
  have hresolve : (Expr.identifier "r" 0).eval vars = .ok value := by
    rw [Expr.eval_identifier, Variables.resolve, NameMap.find?, h]
    rfl
  rw [evaluateWith_of_tokenize htokens, hparse]
  simp only [hresolve]

/-- A value that is put out as JSON is valid JSON, and is loaded again as the value of a variable,
though NaN and the infinities as null. Doubles are assumed to be read back as they are written. -/
theorem Request.output_fed_back {request : Request} {vars : Variables} {value : Value}
    (hjson : request.json = true) (hsyntaxOnly : request.syntaxOnly = false)
    (hload : request.load = .ok vars) (hvalue : evaluateWith vars request.expression = .ok value) :
    request.run.1 = .ok (.output value.jsonText) ∧
      (value.ReadsBack →
        (∃ json, Json.ofText? value.jsonText = some json) ∧
        ∀ source, Json.SoleMember "r" value.jsonText source →
          ∃ bound, Variables.load source = .ok bound ∧ bound.bindings = [("r", value.kept)] ∧
            evaluateWith bound "r" = .ok value.kept) := by
  have hrender : request.render value = value.jsonText := if_pos hjson
  refine ⟨?_, fun hreads => ⟨?_, fun source hsource => ?_⟩⟩
  · rw [run_of_evaluateWith_ok hsyntaxOnly hload hvalue, hrender]
  · exact ⟨value.toJson, (Value.isScalar_jsonText hreads).ofText?⟩
  · obtain ⟨bound, hbound, hbindings⟩ := Variables.load_of_soleMember hsource hreads
    exact ⟨bound, hbound, hbindings, evaluateWith_name hbindings⟩

/-- A whole double is put out with its point, and is loaded as a double again. -/
theorem Request.output_fed_back_whole_double :
    let request : Request := ⟨"100.0", none, true, false⟩
    let value : Value := .number (.float 100.0)
    evaluateWith ∅ "100.0" = .ok value ∧ value.ReadsBack ∧
      request.run.1 = .ok (.output "100.0") ∧
      ∃ bound, Variables.load "\x7b \"r\": 100.0\x7d\n" = .ok bound ∧
        bound.bindings = [("r", value)] ∧ evaluateWith bound "r" = .ok value := by
  intro request value
  have htokens : tokenize "100.0" = .ok [⟨.number, "100.0", 0⟩, ⟨.endOfInput, "", 5⟩] := by
    decide +kernel
  have hparse : ((TokenStream.ofTokens [⟨.number, "100.0", 0⟩, ⟨.endOfInput, "", 5⟩]).parse
      .standard).1 = .ok (.number (.float 100.0) 0) := by
    decide +kernel
  have hevaluate : evaluateWith ∅ "100.0" = .ok value := by
    rw [evaluateWith_of_tokenize htokens, hparse]
    rfl
  have hdecode : Binary64.decode 100.0 = .finite false (25 * 2 ^ 48) 1028 := by decide +kernel
  have hkept : value.kept = value := by
    simp only [value, Value.kept, hdecode]
  have hreads : value.ReadsBack := by
    have hspelled : (Binary64.written (25 * 2 ^ 48) 1028).spelled = ⟨1000, -1⟩ := by
      decide +kernel
    refine Binary64.readsBack_of_spelled_le hdecode ?_ ?_
    · rw [hspelled]
      decide
    · rw [hspelled]
      decide
  have htext : value.jsonText = "100.0" := by decide +kernel
  obtain ⟨hrun, hfed⟩ := @output_fed_back request ∅ value rfl rfl rfl hevaluate
  have hsource : Json.SoleMember "r" value.jsonText "\x7b \"r\": 100.0\x7d\n" := by
    have hblank : Json.IsBlanks [' '] := List.forall_mem_singleton.mpr rfl
    have hbreak : Json.IsBlanks ['\n'] := List.forall_mem_singleton.mpr rfl
    have hchars : "\x7b \"r\": 100.0\x7d\n" = String.ofList ([] ++ '\x7b' :: ([' '] ++
        ((Json.quote "r").toList ++ ([] ++ ':' :: ([' '] ++ ("100.0".toList ++
          ([] ++ '\x7d' :: ['\n']))))))) := by
      decide +kernel
    rw [htext, hchars]
    exact .of Json.isBlanks_nil hblank Json.isBlanks_nil hblank Json.isBlanks_nil hbreak
  obtain ⟨bound, hbound, hbindings, hname⟩ := (hfed hreads).2 _ hsource
  rw [hkept] at hbindings hname
  exact ⟨hevaluate, hreads, htext ▸ hrun, bound, hbound, hbindings, hname⟩

end ScalarExpr
