import ScalarExpr.Proofs.Command.Arguments
import ScalarExpr.Proofs.Command.Log

/-!
# The log and the input do not change an outcome

With the log, a command has the exit code and the standard output that it has without it, and the log
stands in front of its errors. An expression that is given among the arguments has the outcome of the
same text on the standard input. And the outcome of `eval` is what its request is answered with, or says
why there is no text to ask about.

All of this holds whatever a reader of JSON says of the texts that it refuses.
-/

namespace ScalarExpr

namespace CommandLine

/-- What the arguments of `eval` take as the expression: the one among them, or else the text on the
standard input. -/
def EvalArguments.Takes (eval : EvalArguments) (input : Input) (expression : String) : Prop :=
  eval.expression = some expression ∨ eval.expression = none ∧ input = .text expression

/-- What the arguments of `eval` ask of an expression. -/
def EvalArguments.request (eval : EvalArguments) (expression : String) : Request :=
  { expression := expression
    variableText := eval.variableText
    json := eval.json
    syntaxOnly := eval.syntaxOnly }

/-- Why the arguments of `eval` have no answer: the expression is refused, or there is none among them
and the standard input has none either. -/
inductive EvalArguments.Fails (eval : EvalArguments) : Input → Failure → Prop
  | terminal : eval.expression = none → Fails eval .terminal (.refused .noInput)
  | unreadable {reason : String} : eval.expression = none →
    Fails eval (.unreadable reason) (.unreadable reason)
  | refused {input : Input} {expression : String} {refusal : Refusal} :
    eval.Takes input expression → (eval.request expression).run.1 = .error refusal →
    Fails eval input (.refused refusal)

/-- One outcome is the other with a log in front of its errors. -/
structure Louder (quiet loud : Outcome) : Prop where
  exitCode : loud.exitCode = quiet.exitCode
  stdout : loud.stdout = quiet.stdout
  stderr : ∃ log, IsLog log ∧ loud.stderr = log ++ quiet.stderr

/-- An outcome says what the request of an expression is answered with: the answer is a line of the
standard output, or the reason why there is none is the end of the errors. There is always one of the
two, and the exit code tells which. -/
structure Reports (explain : String → String) (eval : EvalArguments) (input : Input)
    (outcome : Outcome) : Prop where
  exitCode_eq_zero_iff : outcome.exitCode = 0 ↔
    ∃ expression, eval.Takes input expression ∧
      ∃ answer, (eval.request expression).run.1 = .ok answer
  valid : ∀ expression, eval.Takes input expression →
    (eval.request expression).run.1 = .ok .valid →
      outcome.stdout = "Syntax is valid\n" ∧ IsLog outcome.stderr
  output : ∀ expression, eval.Takes input expression →
    ∀ text, (eval.request expression).run.1 = .ok (.output text) →
      outcome.stdout = text ++ "\n" ∧ IsLog outcome.stderr
  failed_iff : outcome.exitCode ≠ 0 ↔ ∃ failure, eval.Fails input failure
  failed : ∀ failure, eval.Fails input failure →
    outcome.exitCode = 1 ∧ outcome.stdout = "" ∧
      ∃ log, IsLog log ∧
        outcome.stderr = log ++ (failure.message (eval.variableText.elim "" explain) ++ "\n")

section Answers

variable {eval : EvalArguments} {input : Input} {expression : String} {answer : Answer}
  {failure : Failure}

theorem EvalArguments.takes_iff :
    eval.Takes input expression ↔ eval.expressionFrom input = .ok expression := by
  unfold Takes expressionFrom
  cases eval.expression <;> cases input <;> simp

/-- What the arguments take as the expression decides the answer. -/
theorem answerEval_of_takes (h : eval.Takes input expression) :
    (answerEval eval input).1 = (eval.request expression).run.1.mapError .refused := by
  simp only [answerEval, EvalArguments.takes_iff.mp h, EvalArguments.request]

theorem mapError_eq_ok_iff {ε ε' α : Type} {result : Except ε α} {f : ε → ε'} {a : α} :
    result.mapError f = .ok a ↔ result = .ok a := by
  cases result <;> simp [Except.mapError]

theorem mapError_eq_error_iff {ε ε' α : Type} {result : Except ε α} {f : ε → ε'} {error : ε'} :
    result.mapError f = .error error ↔ ∃ cause, result = .error cause ∧ f cause = error := by
  cases result <;> simp [Except.mapError]

theorem answerEval_eq_ok_iff : (answerEval eval input).1 = .ok answer ↔
    ∃ expression, eval.Takes input expression ∧ (eval.request expression).run.1 = .ok answer := by
  constructor
  · intro h
    cases hfrom : eval.expressionFrom input with
    | error failure =>
      rw [answerEval, hfrom] at h
      cases h
    | ok expression =>
      have htakes := EvalArguments.takes_iff.mpr hfrom
      rw [answerEval_of_takes htakes] at h
      exact ⟨expression, htakes, mapError_eq_ok_iff.mp h⟩
  · rintro ⟨expression, htakes, hrun⟩
    rw [answerEval_of_takes htakes]
    exact mapError_eq_ok_iff.mpr hrun

theorem answerEval_eq_error_iff :
    (answerEval eval input).1 = .error failure ↔ eval.Fails input failure := by
  constructor
  · intro h
    cases hfrom : eval.expressionFrom input with
    | error found =>
      rw [answerEval, hfrom] at h
      cases h
      unfold EvalArguments.expressionFrom at hfrom
      split at hfrom
      · cases hfrom
      · cases hfrom
      · next hnone =>
        cases hfrom
        exact .unreadable hnone
      · next hnone =>
        cases hfrom
        exact .terminal hnone
    | ok expression =>
      have htakes := EvalArguments.takes_iff.mpr hfrom
      rw [answerEval_of_takes htakes] at h
      obtain ⟨refusal, hrun, rfl⟩ := mapError_eq_error_iff.mp h
      exact .refused htakes hrun
  · intro h
    cases h with
    | terminal hnone | unreadable hnone =>
      simp only [answerEval, EvalArguments.expressionFrom, hnone]
    | refused htakes hrun =>
      rw [answerEval_of_takes htakes]
      exact mapError_eq_error_iff.mpr ⟨_, hrun, rfl⟩

end Answers

section Commands

variable (explain : String → String) (verbose : Bool) (eval : EvalArguments) (input : Input)

/-- The log of `eval`. -/
def evalLog : String := logText verbose "miniexpr::cli::check" (answerEval eval input).2

theorem isLog_evalLog : IsLog (evalLog verbose eval input) := by
  refine isLog_logText verbose _ (by decide) ?_
  cases hfrom : eval.expressionFrom input with
  | error failure =>
    rw [answerEval, hfrom]
    exact List.forall_mem_nil _
  | ok expression =>
    have hlog : (answerEval eval input).2 = (eval.request expression).run.2 := by
      simp only [answerEval, hfrom, EvalArguments.request]
    rw [hlog]
    exact Request.shows_run _

theorem runEval_eq : runEval explain verbose eval input =
    match (answerEval eval input).1 with
    | .ok .valid => ⟨0, "Syntax is valid\n", evalLog verbose eval input⟩
    | .ok (.output text) => ⟨0, text ++ "\n", evalLog verbose eval input⟩
    | .error failure => ⟨1, "", evalLog verbose eval input ++
        (failure.message (eval.reason explain) ++ "\n")⟩ := rfl

theorem exitCode_runEval : (runEval explain verbose eval input).exitCode =
    match (answerEval eval input).1 with
    | .ok _ => 0
    | .error _ => 1 := by
  rw [runEval_eq]
  split <;> simp_all

/-- What `eval` leaves behind is what its request is answered with. -/
theorem reports_runEval : Reports explain eval input (runEval explain verbose eval input) where
  exitCode_eq_zero_iff := by
    have hanswered : (runEval explain verbose eval input).exitCode = 0 ↔
        ∃ answer, (answerEval eval input).1 = .ok answer := by
      rw [exitCode_runEval]
      cases (answerEval eval input).1 <;> simp
    simp only [hanswered, answerEval_eq_ok_iff]
    exact exists_comm.trans (exists_congr fun _ => exists_and_left)
  valid expression htakes hrun := by
    rw [runEval_eq, answerEval_eq_ok_iff.mpr ⟨expression, htakes, hrun⟩]
    exact ⟨rfl, isLog_evalLog verbose eval input⟩
  output expression htakes text hrun := by
    rw [runEval_eq, answerEval_eq_ok_iff.mpr ⟨expression, htakes, hrun⟩]
    exact ⟨rfl, isLog_evalLog verbose eval input⟩
  failed_iff := by
    simp only [← answerEval_eq_error_iff, exitCode_runEval]
    cases (answerEval eval input).1 <;> simp
  failed failure hfails := by
    rw [runEval_eq, answerEval_eq_error_iff.mpr hfails]
    exact ⟨rfl, rfl, _, isLog_evalLog verbose eval input, rfl⟩

theorem louder_runEval : Louder (runEval explain false eval input) (runEval explain true eval input) := by
  have hlog := isLog_evalLog true eval input
  have hquiet : evalLog false eval input = "" := rfl
  rw [runEval_eq, runEval_eq, hquiet]
  split <;> exact ⟨rfl, rfl, _, hlog, by simp⟩

theorem louder_runDemo : Louder (runDemo false) (runDemo true) where
  exitCode := by simp only [runDemo]
  stdout := by simp only [runDemo]
  stderr := ⟨_, isLog_logText true "miniexpr" (by decide) shows_demo, by simp [runDemo, logText]⟩

/-- Arguments with the expression ask what the same ones without it ask when it is the input. -/
theorem runEval_given (h : eval.expression = none) (text : String) :
    runEval explain verbose { eval with expression := some text } input =
      runEval explain verbose eval (.text text) := by
  have hanswer : answerEval { eval with expression := some text } input =
      answerEval eval (.text text) := by
    simp only [answerEval, EvalArguments.expressionFrom, h]
  rw [runEval, runEval, hanswer]
  rfl

end Commands

/-- The arguments of `eval` that choose the variables and the two switches and leave the expression to
the standard input. -/
def spelled (variableText : Option String) (json syntaxOnly : Bool) : List String :=
  "eval" :: ((variableText.map ("--vars=" ++ ·)).toList ++
    ((if json then ["--json"] else []) ++ if syntaxOnly then ["--syntax-only"] else []))

section Spelled

variable (variableText : Option String) (json syntaxOnly : Bool)

/-- The variables behind an equals sign are one argument, whatever they are. -/
theorem ofString_vars (text : String) :
    Argument.ofString ("--vars=" ++ text) = .long "vars" (some text) := by
  simp [Argument.ofString]

theorem separator_not_mem_spelled : "--" ∉ spelled variableText json syntaxOnly := by
  have hvars (text : String) : "--" ≠ "--vars=" ++ text := fun h => by
    have hseparator := Argument.ofString_eq_separator_iff.mpr h.symm
    rw [ofString_vars] at hseparator
    cases hseparator
  cases variableText <;> cases json <;> cases syntaxOnly <;> simp [spelled, hvars]

/-- The arguments that spell a choice are read as it, and there is no log. -/
theorem ofArguments_spelled :
    Invocation.ofArguments (spelled variableText json syntaxOnly) =
      .run false (.eval ⟨none, variableText, json, syntaxOnly⟩) := by
  have heval (rest : List String) :
      Invocation.ofArguments ("eval" :: rest) = evalArguments false EvalState.start rest := rfl
  have hjson : Argument.ofString "--json" = .long "json" none := by decide
  have hsyntaxOnly : Argument.ofString "--syntax-only" = .long "syntax-only" none := by decide
  rw [spelled, heval]
  cases variableText <;> cases json <;> cases syntaxOnly <;>
    simp [evalArguments, evalStep, ofString_vars, hjson, hsyntaxOnly, EvalState.start,
      EvalState.takeVariables, EvalState.takeFlag, EvalState.finish]

end Spelled

/-- What the log and the standard input do to the outcome of a list of arguments. -/
structure Channels (explain : String → String) (arguments : List String) (input : Input) : Prop where
  /-- The switch for the log adds its lines in front of the errors. -/
  louder : ∀ command, Invocation.ofArguments arguments = .run false command →
    Louder (outcomeOn explain arguments input) (outcomeOn explain ("-v" :: arguments) input)
  /-- A text may be given instead of being the standard input, whatever that is then. -/
  given : ∀ verbose eval, Invocation.ofArguments arguments = .run verbose (.eval eval) →
    eval.expression = none → ∀ text,
      outcomeOn explain (arguments ++ behind arguments text) input =
        outcomeOn explain arguments (.text text)
  /-- The outcome of `eval` is that of its request. -/
  reports : ∀ verbose eval, Invocation.ofArguments arguments = .run verbose (.eval eval) →
    Reports explain eval input (outcomeOn explain arguments input)

theorem channels (explain : String → String) (arguments : List String) (input : Input) :
    Channels explain arguments input where
  louder command h := by
    rw [outcomeOn, outcomeOn, ofArguments_switch h, h]
    cases command with
    | eval eval => exact louder_runEval explain eval input
    | demo => exact louder_runDemo
  given verbose eval h hnone text := by
    have hbehind : Invocation.ofArguments (arguments ++ behind arguments text) =
        .run verbose (.eval { eval with expression := some text }) :=
      frontArguments_append h hnone text
    rw [outcomeOn, outcomeOn, h, hbehind]
    exact runEval_given explain verbose eval input hnone text
  reports verbose eval h := by
    rw [outcomeOn, h]
    exact reports_runEval explain verbose eval input

/-- Neither the log nor the way in which the expression is given changes an outcome, and the outcome of
`eval` is what its request is answered with. Every choice of variables and switches is among the
arguments this is about, and the separator with the expression may follow them. -/
theorem outcome_channels (explain : String → String) :
    (∀ arguments input, Channels explain arguments input) ∧
      ∀ variableText json syntaxOnly,
        Invocation.ofArguments (spelled variableText json syntaxOnly) =
            .run false (.eval ⟨none, variableText, json, syntaxOnly⟩) ∧
          ∀ text input,
            outcomeOn explain (spelled variableText json syntaxOnly ++ ["--", text]) input =
              outcomeOn explain (spelled variableText json syntaxOnly) (.text text) := by
  refine ⟨channels explain, fun variableText json syntaxOnly => ?_⟩
  have hread := ofArguments_spelled variableText json syntaxOnly
  refine ⟨hread, fun text input => ?_⟩
  have hbehind : behind (spelled variableText json syntaxOnly) text = ["--", text] :=
    if_neg (separator_not_mem_spelled variableText json syntaxOnly)
  rw [← hbehind]
  exact (channels explain _ input).given _ _ hread rfl text

end CommandLine

end ScalarExpr
