import ScalarExpr.Command.Request
import ScalarExpr.Proofs.Diagnostic.Respacing
import ScalarExpr.Proofs.Token.Trailing
import Mathlib.Data.List.DropRight

/-!
# Requests agree with evaluations

A request drops the line breaks at the end of its text, looks for blanks by itself and, where only
the syntax is asked for, goes its own way to the tree. Its answers are still those of evaluating the
text as it was given. Only an error behind the last character is then reported further in front,
behind the last character that is left.
-/

namespace ScalarExpr

open Text

/-- Two results are the same value, or errors of the same stage with the same message, where the
second is at the offset of the first or, if this is smaller, at a bound. -/
inductive Clips (bound : Nat) : Except Diagnostic Value → Except Diagnostic Value → Prop
  | ok (value : Value) : Clips bound (.ok value) (.ok value)
  | error {diagnostic clipped : Diagnostic} : clipped.stage = diagnostic.stage →
    clipped.message = diagnostic.message → clipped.offset = min diagnostic.offset bound →
    Clips bound (.error diagnostic) (.error clipped)

section Gap

variable {source gap : String}

/-- A text without tokens has an error of the scanner under all variables. -/
theorem evaluateWith_of_lexError {error : LexError} (h : tokenize source = .error error)
    (vars : Variables) :
    evaluateWith vars source = .error ⟨.lex, error.message, error.offset, some source⟩ := by
  rw [evaluateWith, evaluateIn, parseReporting, Expr.ofSource_eq, h]
  rfl

/-- An offset up to the end of a text is the smaller one of the end and of where blanks behind the
text move it. -/
theorem eq_min_pushedFrom {stop offset : Nat} (distance : Nat) (h : offset ≤ stop) :
    offset = min (pushedFrom stop distance offset) stop := by
  unfold pushedFrom
  split <;> omega

/-- Without the blanks at its end a text has the same value, or the same error at an offset within
it. -/
theorem clips_of_append_gap (source : String) (hgap : IsGap gap.toList) (vars : Variables) :
    Clips source.length (evaluateWith vars (source ++ gap)) (evaluateWith vars source) := by
  have hmoved := tokenize_append_gap source hgap
  cases htokens : tokenize source with
  | error error =>
    rw [htokens] at hmoved
    rw [evaluateWith_of_lexError htokens, evaluateWith_of_lexError hmoved]
    have hoffset := offset_lt_of_tokenize htokens
    exact .error rfl rfl (Nat.min_eq_left (Nat.le_of_lt hoffset)).symm
  | ok tokens =>
    rw [htokens] at hmoved
    have hlaid := laidOut_of_tokenize htokens
    have hcorresponds := corresponds_of_relocate htokens hmoved vars
    generalize evaluateWith vars source = result at hcorresponds ⊢
    generalize evaluateWith vars (source ++ gap) = result' at hcorresponds ⊢
    cases hcorresponds with
    | ok value => exact .ok value
    | @error diagnostic diagnostic' index token token' hstage hmessage hindex hoffset hindex'
        hoffset' =>
      refine .error hstage.symm hmessage.symm ?_
      rw [List.getElem?_map, hindex] at hindex'
      cases hindex'
      rw [← hoffset, ← hoffset', Token.offset_relocate]
      exact eq_min_pushedFrom _ (hlaid.offset_le (List.mem_of_getElem? hindex))

end Gap

section Stages

variable {source : String} {diagnostic : Diagnostic}

/-- A text without a tree is refused by the scanner or by the parser, under all variables. -/
theorem evaluateWith_of_parseReporting_error (h : parseReporting source = .error diagnostic) :
    (diagnostic.stage = .lex ∨ diagnostic.stage = .parse) ∧
      ∀ vars, evaluateWith vars source = .error diagnostic := by
  constructor
  · unfold parseReporting at h
    split at h
    · next error _ =>
      cases h
      cases error with
      | lex error => exact .inl rfl
      | parse error => exact .inr rfl
    · cases h
  · intro vars
    rw [evaluateWith, evaluateIn, h]

/-- Where there is a tree, neither the scanner nor the parser refuses the text. -/
theorem stage_of_parseReporting_ok {e : Expr} {vars : Variables} (h : parseReporting source = .ok e)
    (hevaluate : evaluateWith vars source = .error diagnostic) :
    diagnostic.stage ≠ .lex ∧ diagnostic.stage ≠ .parse := by
  simp only [evaluateWith, evaluateIn, h] at hevaluate
  split at hevaluate
  · next error _ =>
    cases hevaluate
    cases error <;> constructor <;> intro hstage <;> cases hstage
  · cases hevaluate

end Stages

section LineBreaks

variable {text breaks : String}

/-- Characters that end lines. -/
def IsLineBreaks (breaks : String) : Prop := ∀ c ∈ breaks.toList, c = '\n' ∨ c = '\r'

/-- Line breaks are blanks. -/
theorem IsLineBreaks.isGap (h : IsLineBreaks breaks) : IsGap breaks.toList := by
  intro c hc
  rcases h c hc with rfl | rfl <;> decide

/-- Line breaks are dropped from the end as long as there are any. -/
theorem toList_dropLineBreaks (text : String) : (dropLineBreaks text).toList =
    text.toList.rdropWhile fun c => c == '\n' || c == '\r' :=
  String.toList_ofList

/-- A text is what is left of it and the line breaks that are dropped. -/
theorem exists_lineBreaks (text : String) :
    ∃ breaks, IsLineBreaks breaks ∧ dropLineBreaks text ++ breaks = text := by
  let breaks := text.toList.rtakeWhile fun c => c == '\n' || c == '\r'
  refine ⟨String.ofList breaks, fun c hc => ?_, ?_⟩
  · rw [String.toList_ofList] at hc
    simpa using List.mem_rtakeWhile_imp hc
  · rw [← String.toList_inj, String.toList_append, String.toList_ofList, toList_dropLineBreaks]
    exact List.rdropWhile_append_rtakeWhile

/-- Line breaks at the end of a text are dropped with those that are there. -/
theorem dropLineBreaks_append (h : IsLineBreaks breaks) :
    dropLineBreaks (text ++ breaks) = dropLineBreaks text := by
  have hall : ∀ c ∈ breaks.toList.reverse, (c == '\n' || c == '\r') = true := by
    intro c hc
    simpa using h c (List.mem_reverse.mp hc)
  rw [dropLineBreaks, String.toList_append, List.reverse_append,
    List.dropWhile_append_of_pos hall]
  rfl

end LineBreaks

namespace Request

variable {request : Request} {vars : Variables}

/-- A text with nothing but blanks is no request. -/
theorem run_of_isGap (h : IsGap (dropLineBreaks request.expression).toList) :
    request.run = (.error .noInput, []) :=
  if_pos (List.all_eq_true.mpr h)

/-- Where only the syntax is asked for, the answer is that of reading the tree. -/
theorem run_of_syntaxOnly (h : ¬ IsGap (dropLineBreaks request.expression).toList)
    (hsyntaxOnly : request.syntaxOnly = true) :
    request.run.1 = match parseReporting (dropLineBreaks request.expression) with
      | .error diagnostic => .error (.diagnostic diagnostic)
      | .ok _ => .ok .valid := by
  rw [run, if_neg (mt List.all_eq_true.mp h), if_pos hsyntaxOnly]
  cases parseReporting (dropLineBreaks request.expression) <;> rfl

/-- Otherwise it is that of evaluating the text under the variables. -/
theorem run_of_load (h : ¬ IsGap (dropLineBreaks request.expression).toList)
    (hsyntaxOnly : request.syntaxOnly = false) (hload : request.load = .ok vars) :
    request.run.1 = match evaluateWith vars (dropLineBreaks request.expression) with
      | .error diagnostic => .error (.diagnostic diagnostic)
      | .ok value => .ok (.output (request.render value)) := by
  rw [run, if_neg (mt List.all_eq_true.mp h), if_neg (by simp [hsyntaxOnly]), hload]
  show (request.answerWith (dropLineBreaks request.expression) vars).1 = _
  rw [answerWith]
  cases evaluateWith vars (dropLineBreaks request.expression) <;> rfl

/-- How the answer to a request agrees with reading and evaluating its text. -/
structure Agrees (request : Request) : Prop where
  /-- There is no input exactly if the text has no token. -/
  noInput_iff : request.run.1 = .error .noInput ↔
    ∃ token, tokenize request.expression = .ok [token] ∧ token.kind = .endOfInput
  /-- Line breaks at the end of the text do not matter. -/
  append_lineBreaks : ∀ breaks, IsLineBreaks breaks →
    ({ request with expression := request.expression ++ breaks } : Request).run = request.run
  /-- A syntax is valid exactly if no evaluation fails before there is a tree. -/
  valid_iff : request.run.1 ≠ .error .noInput → request.syntaxOnly = true →
    (request.run.1 = .ok .valid ↔
      ∀ vars diagnostic, evaluateWith vars (dropLineBreaks request.expression) = .error diagnostic →
        diagnostic.stage ≠ .lex ∧ diagnostic.stage ≠ .parse)
  /-- An error of the syntax is that of every evaluation. -/
  invalid : request.run.1 ≠ .error .noInput → request.syntaxOnly = true →
    ∀ diagnostic, request.run.1 = .error (.diagnostic diagnostic) →
      ∀ other : Request, other.expression = request.expression → other.syntaxOnly = false →
        (∃ vars, other.load = .ok vars) → other.run.1 = .error (.diagnostic diagnostic)
  /-- The value of the text is what is put out, in JSON if that is asked for. -/
  output : request.run.1 ≠ .error .noInput → request.syntaxOnly = false →
    ∀ vars, request.load = .ok vars →
      ∀ value, evaluateWith vars request.expression = .ok value →
        request.run.1 = .ok (.output (if request.json then value.jsonText else value.text))
  /-- The error of the text is reported, within what is left of it. -/
  error : request.run.1 ≠ .error .noInput → request.syntaxOnly = false →
    ∀ vars, request.load = .ok vars →
      ∀ diagnostic, evaluateWith vars request.expression = .error diagnostic →
        ∃ clipped, request.run.1 = .error (.diagnostic clipped) ∧
          clipped.stage = diagnostic.stage ∧ clipped.message = diagnostic.message ∧
          clipped.offset = min diagnostic.offset (dropLineBreaks request.expression).length

/-- A text has no token exactly if nothing but blanks is left of it. -/
theorem isGap_dropLineBreaks_iff (text : String) :
    IsGap (dropLineBreaks text).toList ↔
      ∃ token, tokenize text = .ok [token] ∧ token.kind = .endOfInput := by
  obtain ⟨breaks, hbreaks, htext⟩ := exists_lineBreaks text
  rw [tokenize_eq_end_iff]
  constructor
  · intro hgap
    rw [← htext, String.toList_append]
    exact List.forall_mem_append.mpr ⟨hgap, hbreaks.isGap⟩
  · intro hgap
    rw [← htext, String.toList_append] at hgap
    exact (List.forall_mem_append.mp hgap).1

/-- There is no input exactly if nothing but blanks is left of the text. -/
theorem run_eq_noInput_iff :
    request.run.1 = .error .noInput ↔ IsGap (dropLineBreaks request.expression).toList := by
  refine ⟨fun hrun => ?_, fun hgap => by rw [run_of_isGap hgap]⟩
  by_contra hgap
  cases hsyntaxOnly : request.syntaxOnly with
  | true =>
    rw [run_of_syntaxOnly hgap hsyntaxOnly] at hrun
    split at hrun <;> cases hrun
  | false =>
    cases hload : request.load with
    | error error =>
      rw [run, if_neg (mt List.all_eq_true.mp hgap), if_neg (by simp [hsyntaxOnly]), hload] at hrun
      cases hrun
    | ok vars =>
      rw [run_of_load hgap hsyntaxOnly hload] at hrun
      split at hrun <;> cases hrun

/-- Evaluating the text without the line breaks at its end clips errors at what is left. -/
theorem clips_dropLineBreaks (text : String) (vars : Variables) :
    Clips (dropLineBreaks text).length (evaluateWith vars text)
      (evaluateWith vars (dropLineBreaks text)) := by
  obtain ⟨breaks, hbreaks, htext⟩ := exists_lineBreaks text
  have hclips := clips_of_append_gap (dropLineBreaks text) hbreaks.isGap vars
  rwa [htext] at hclips

/-- A text with a value is a request. -/
theorem not_isGap_of_evaluateWith {text : String} {value : Value}
    (h : evaluateWith vars text = .ok value) : ¬ IsGap (dropLineBreaks text).toList := by
  rw [isGap_dropLineBreaks_iff]
  rintro ⟨token, htokens, -⟩
  unfold evaluateWith evaluateIn parseReporting at h
  cases htree : Expr.ofSource text with
  | error error =>
    rw [htree] at h
    cases h
  | ok e =>
    obtain ⟨words, hwords, hderives⟩ := derives_of_ofSource htree
    obtain ⟨first, hfirst, -⟩ := hderives.pos_mem
    rw [htokens, Except.ok.injEq] at hwords
    cases words with
    | nil => cases hfirst
    | cons word words => simp at hwords

/-- The value of a text is put out, with or without the line breaks at its end. -/
theorem run_of_evaluateWith_ok {value : Value} (hsyntaxOnly : request.syntaxOnly = false)
    (hload : request.load = .ok vars) (hvalue : evaluateWith vars request.expression = .ok value) :
    request.run.1 = .ok (.output (request.render value)) := by
  have hclips := clips_dropLineBreaks request.expression vars
  rw [run_of_load (not_isGap_of_evaluateWith hvalue) hsyntaxOnly hload]
  rw [hvalue] at hclips
  generalize evaluateWith vars (dropLineBreaks request.expression) = result at hclips ⊢
  cases hclips
  rfl

/-- The answer to a request agrees with reading and evaluating its text. -/
theorem agrees (request : Request) : request.Agrees where
  noInput_iff := run_eq_noInput_iff.trans (isGap_dropLineBreaks_iff request.expression)
  append_lineBreaks := by
    intro breaks hbreaks
    simp only [run, dropLineBreaks_append hbreaks]
    rfl
  valid_iff := by
    intro hinput hsyntaxOnly
    rw [run_of_syntaxOnly (mt run_eq_noInput_iff.mpr hinput) hsyntaxOnly]
    cases hparse : parseReporting (dropLineBreaks request.expression) with
    | error diagnostic =>
      obtain ⟨hstage, hevaluate⟩ := evaluateWith_of_parseReporting_error hparse
      refine ⟨nofun, fun hstages => ?_⟩
      obtain ⟨hlex, hparse⟩ := hstages ∅ diagnostic (hevaluate ∅)
      exact (hstage.elim hlex hparse).elim
    | ok e => exact ⟨fun _ vars diagnostic => stage_of_parseReporting_ok hparse, fun _ => rfl⟩
  invalid := by
    intro hinput hsyntaxOnly diagnostic hrun other hexpression hother hload
    obtain ⟨vars, hload⟩ := hload
    have hgap := mt run_eq_noInput_iff.mpr hinput
    rw [run_of_syntaxOnly hgap hsyntaxOnly] at hrun
    rw [← hexpression] at hrun hgap
    rw [run_of_load hgap hother hload]
    split at hrun
    · next heq =>
      cases hrun
      rw [(evaluateWith_of_parseReporting_error heq).2 vars]
    · cases hrun
  output _ hsyntaxOnly _ hload _ hvalue := run_of_evaluateWith_ok hsyntaxOnly hload hvalue
  error := by
    intro hinput hsyntaxOnly vars hload diagnostic hdiagnostic
    have hclips := clips_dropLineBreaks request.expression vars
    rw [run_of_load (mt run_eq_noInput_iff.mpr hinput) hsyntaxOnly hload]
    rw [hdiagnostic] at hclips
    generalize evaluateWith vars (dropLineBreaks request.expression) = result at hclips ⊢
    cases hclips with
    | error hstage hmessage hoffset => exact ⟨_, rfl, hstage, hmessage, hoffset⟩

/-- What a negation misses behind a line break is reported in front of it. -/
theorem agrees_negation_of_nothing :
    let request : Request := ⟨"-\n", none, false, false⟩
    let error : ParseError := .unexpectedToken "end of input" 2
    evaluateWith ∅ "-\n" = .error ⟨.parse, error.message, 2, some "-\n"⟩ ∧
      ∃ clipped, request.run.1 = .error (.diagnostic clipped) ∧ clipped.stage = .parse ∧
        clipped.message = error.message ∧ clipped.offset = 1 := by
  intro request error
  have htokens : tokenize "-\n" = .ok [⟨.minus, "-", 0⟩, ⟨.endOfInput, "", 2⟩] := by decide +kernel
  have hparse : ((TokenStream.ofTokens [⟨.minus, "-", 0⟩, ⟨.endOfInput, "", 2⟩]).parse
      .standard).1 = .error error := by
    decide +kernel
  have hevaluate : evaluateWith ∅ "-\n" = .error ⟨.parse, error.message, 2, some "-\n"⟩ := by
    rw [evaluateWith_of_tokenize htokens, hparse]
    rfl
  have hleft : dropLineBreaks "-\n" = "-" := by decide
  have hinput : request.run.1 ≠ .error .noInput := by
    rw [ne_eq, run_eq_noInput_iff, hleft]
    decide
  obtain ⟨clipped, hrun, hstage, hmessage, hoffset⟩ :=
    (agrees request).error hinput rfl ∅ rfl _ hevaluate
  refine ⟨hevaluate, clipped, hrun, hstage, hmessage, ?_⟩
  rw [hoffset, hleft]
  rfl

end Request

end ScalarExpr
