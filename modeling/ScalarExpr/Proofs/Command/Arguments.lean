import ScalarExpr.Command.Outcome

/-!
# Arguments that ask for more

Two changes of the arguments are followed through all their readers. The switch for the log in front of
the command makes every command one with the log, and nothing else is read in another way. An expression
that is given last, behind the separator, becomes the expression of a command that had none.

An argument does the same to the reading whatever has been read and whatever is behind it. `EvalRole` and
`FrontRole` say once what it can do, for the arguments of `eval` and for those in front of the command.
-/

namespace ScalarExpr.CommandLine

/-- The invocation, with the log if it is asked for outside. -/
def Invocation.within (outer : Bool) : Invocation → Invocation
  | run verbose command => run (outer || verbose) command
  | other => other

/-- A step that ends the arguments starts no command. -/
def Step.RunsNothing {σ : Type} (step : Step σ) : Prop :=
  ∀ verbose command, step ≠ .stop (.run verbose command)

/-- Arguments that are out of place start no command. -/
theorem Step.misuse_runsNothing {σ : Type} : (Step.stop .misuse : Step σ).RunsNothing := by
  intro verbose command h
  cases h

section Ends

variable {σ : Type} {invocation : Invocation} {verbose : Bool} {command : Command}

theorem Step.RunsNothing.ne_run (h : (Step.stop invocation : Step σ).RunsNothing) :
    invocation ≠ .run verbose command :=
  fun heq => h verbose command (congrArg stop heq)

/-- An invocation that is no command is the same within any other. -/
theorem Step.RunsNothing.within_eq (h : (Step.stop invocation : Step σ).RunsNothing) (outer : Bool) :
    invocation.within outer = invocation := by
  cases invocation with
  | run verbose command => exact absurd rfl h.ne_run
  | version | help | misuse => rfl

end Ends

/-- The separator is the only argument of its form. -/
theorem Argument.ofString_eq_separator_iff {text : String} :
    Argument.ofString text = .separator ↔ text = "--" := by
  rw [← String.toList_inj]
  unfold Argument.ofString
  grind

section Steps

variable (state : EvalState) (text : String) (front verbose : Bool) (flags : List Char)

/-- Options of one character are switches for the log, unless they end the arguments. -/
theorem shortFlags_runsNothing : (shortFlags front verbose flags).RunsNothing := by
  induction flags generalizing verbose with
  | nil => grind [shortFlags, Step.RunsNothing]
  | cons flag flags ih => grind [shortFlags, switch, Step.RunsNothing]

theorem EvalState.takeExpression_runsNothing : (state.takeExpression text).RunsNothing := by
  grind [takeExpression, Step.RunsNothing]

theorem EvalState.takeVariables_runsNothing : (state.takeVariables text).RunsNothing := by
  grind [takeVariables, Step.RunsNothing]

theorem EvalState.takeFlag_runsNothing : (state.takeFlag text).RunsNothing := by
  grind [takeFlag, Step.RunsNothing]

theorem EvalState.takeShort_runsNothing : (state.takeShort flags).RunsNothing := by
  have hflags := shortFlags_runsNothing false state.verbose flags
  grind [takeShort, Step.RunsNothing]

end Steps

/-- What an argument does to the reading of those of `eval`, whatever has been read and is behind it. -/
inductive EvalRole (text : String) : Prop
  | separator : text = "--" →
    (∀ outer state rest, evalArguments outer state (text :: rest) = evalPlain outer state rest) →
    EvalRole text
  /-- The next argument is the value of the variables. -/
  | nextValue : text ≠ "--" →
    (∀ outer state rest, evalArguments outer state (text :: rest) = evalValue outer state rest) →
    EvalRole text
  | step (step : EvalState → Step EvalState) : text ≠ "--" → (∀ state, (step state).RunsNothing) →
    (∀ outer state rest,
      evalArguments outer state (text :: rest) = evalStep outer (step state) rest) →
    EvalRole text

/-- An argument of `eval` is the separator, or it takes the next one as the variables, or it is one
step. -/
theorem evalRole (text : String) : EvalRole text := by
  have hother (h : Argument.ofString text ≠ .separator) : text ≠ "--" :=
    mt Argument.ofString_eq_separator_iff.mpr h
  cases harg : Argument.ofString text with
  | separator =>
    refine .separator (Argument.ofString_eq_separator_iff.mp harg) fun outer state rest => ?_
    rw [evalArguments, harg]
  | long name value =>
    have hlong : text ≠ "--" := hother (by simp [harg])
    by_cases hvars : name = "vars"
    · subst hvars
      cases value with
      | none =>
        refine .nextValue hlong fun outer state rest => ?_
        rw [evalArguments, harg]
        rfl
      | some value =>
        refine .step (·.takeVariables value) hlong
          (fun _ => EvalState.takeVariables_runsNothing _ _) fun outer state rest => ?_
        rw [evalArguments, harg]
        rfl
    · cases value with
      | none =>
        refine .step (·.takeFlag name) hlong (fun _ => EvalState.takeFlag_runsNothing _ _)
          fun outer state rest => ?_
        rw [evalArguments, harg]
        split <;> simp_all
      | some value =>
        refine .step (fun _ => .stop .misuse) hlong (fun _ => Step.misuse_runsNothing)
          fun outer state rest => ?_
        rw [evalArguments, harg]
        split <;> simp_all [evalStep]
  | short flags =>
    refine .step (·.takeShort flags) (hother (by simp [harg]))
      (fun _ => EvalState.takeShort_runsNothing _ _) fun outer state rest => ?_
    rw [evalArguments, harg]
  | plain value =>
    refine .step (·.takeExpression value) (hother (by simp [harg]))
      (fun _ => EvalState.takeExpression_runsNothing _ _) fun outer state rest => ?_
    rw [evalArguments, harg]

/-- The value of the variables, where it is the next argument, is no option and not the separator. -/
theorem evalValue_cons (text : String) :
    (text ≠ "--" ∧ ∃ value, ∀ outer state rest,
      evalValue outer state (text :: rest) = evalStep outer (state.takeVariables value) rest) ∨
    ∀ outer state rest, evalValue outer state (text :: rest) = .misuse := by
  cases harg : Argument.ofString text with
  | plain value =>
    refine .inl ⟨mt Argument.ofString_eq_separator_iff.mpr (by simp [harg]), value,
      fun outer state rest => ?_⟩
    rw [evalValue, harg]
  | separator | long | short =>
    refine .inr fun outer state rest => ?_
    rw [evalValue, harg]

section Outer

variable (outer : Bool)

/-- The arguments behind the separator are read in the same way with the log. -/
theorem evalPlain_eq (state : EvalState) (arguments : List String) :
    evalPlain outer state arguments = (evalPlain false state arguments).within outer := by
  induction arguments generalizing state with
  | nil => simp [evalPlain, EvalState.finish, Invocation.within]
  | cons text rest ih =>
    have hruns := state.takeExpression_runsNothing text
    simp only [evalPlain]
    cases hstep : state.takeExpression text with
    | go state => exact ih state
    | stop invocation =>
      rw [hstep] at hruns
      exact (hruns.within_eq outer).symm

/-- The arguments of `eval` are read in the same way with the log. -/
theorem evalArguments_eq (arguments : List String) (state : EvalState) :
    evalArguments outer state arguments = (evalArguments false state arguments).within outer ∧
      evalValue outer state arguments = (evalValue false state arguments).within outer := by
  induction arguments generalizing state with
  | nil => simp [evalArguments, evalValue, EvalState.finish, Invocation.within]
  | cons text rest ih =>
    have hstep {step : Step EvalState} (hruns : step.RunsNothing) :
        evalStep outer step rest = (evalStep false step rest).within outer := by
      cases step with
      | go state =>
        simp only [evalStep]
        exact (ih state).1
      | stop invocation =>
        simp only [evalStep]
        exact (hruns.within_eq outer).symm
    constructor
    · cases evalRole text with
      | separator _ heq =>
        rw [heq, heq]
        exact evalPlain_eq outer state rest
      | nextValue _ heq =>
        rw [heq, heq]
        exact (ih state).2
      | step step _ hruns heq =>
        rw [heq, heq]
        exact hstep (hruns state)
    · obtain ⟨-, value, heq⟩ | heq := evalValue_cons text
      · rw [heq, heq]
        exact hstep (state.takeVariables_runsNothing value)
      · rw [heq, heq]
        rfl

/-- The arguments of `demo` are read in the same way with the log. -/
theorem demoArguments_eq (verbose : Bool) (arguments : List String) :
    demoArguments outer verbose arguments = (demoArguments false verbose arguments).within outer := by
  induction arguments generalizing verbose with
  | nil => simp [demoArguments, Invocation.within]
  | cons text rest ih =>
    have hruns := shortFlags_runsNothing false verbose
    unfold demoArguments
    split
    · split
      · simp [Invocation.within]
      · rfl
    · split
      · rfl
      · exact ih true
    · rfl
    · next flags _ =>
      split
      · exact ih _
      · next invocation hflags =>
        exact ((hflags ▸ hruns flags : (Step.stop invocation).RunsNothing).within_eq outer).symm
    · rfl

end Outer

/-- Reading on in front of the command after a step. -/
def frontStep (rest : List String) : Step Bool → Invocation
  | .go verbose => frontArguments verbose rest
  | .stop invocation => invocation

/-- What an argument does in front of the command, whatever is behind it. -/
inductive FrontRole (text : String) : Prop
  | eval : text ≠ "--" →
    (∀ verbose rest,
      frontArguments verbose (text :: rest) = evalArguments verbose EvalState.start rest) →
    FrontRole text
  | demo :
    (∀ verbose rest, frontArguments verbose (text :: rest) = demoArguments verbose false rest) →
    FrontRole text
  | help : (∀ verbose rest, frontArguments verbose (text :: rest) = helpArguments rest) →
    FrontRole text
  | misuse : (∀ verbose rest, frontArguments verbose (text :: rest) = .misuse) → FrontRole text
  /-- Options of one character, for which the longer ones stand. -/
  | flags (flags : List Char) : text ≠ "--" →
    (∀ verbose rest,
      frontArguments verbose (text :: rest) = frontStep rest (shortFlags true verbose flags)) →
    FrontRole text

/-- An argument in front of the command is the command, a request for help with commands, or out of
place, or it is one or more options. -/
theorem frontRole (text : String) : FrontRole text := by
  have hother (h : Argument.ofString text ≠ .separator) : text ≠ "--" :=
    mt Argument.ofString_eq_separator_iff.mpr h
  cases harg : Argument.ofString text with
  | separator =>
    refine .misuse fun verbose rest => ?_
    rw [frontArguments, harg]
  | short flags =>
    refine .flags flags (hother (by simp [harg])) fun verbose rest => ?_
    rw [frontArguments, harg]
    rfl
  | plain name =>
    by_cases heval : name = "eval"
    · refine .eval (hother (by simp [harg])) fun verbose rest => ?_
      rw [frontArguments, harg, heval]
      rfl
    by_cases hdemo : name = "demo"
    · refine .demo fun verbose rest => ?_
      rw [frontArguments, harg, hdemo]
      rfl
    by_cases hhelp : name = "help"
    · refine .help fun verbose rest => ?_
      rw [frontArguments, harg, hhelp]
      rfl
    refine .misuse fun verbose rest => ?_
    rw [frontArguments, harg]
    split <;> simp_all
  | long name value =>
    have hlong : text ≠ "--" := hother (by simp [harg])
    by_cases hknown : value = none ∧ (name = "verbose" ∨ name = "version" ∨ name = "help")
    · obtain ⟨rfl, rfl | rfl | rfl⟩ := hknown
      · refine .flags ['v'] hlong fun verbose rest => ?_
        rw [frontArguments, harg]
        cases verbose <;> rfl
      · refine .flags ['V'] hlong fun verbose rest => ?_
        rw [frontArguments, harg]
        rfl
      · refine .flags ['h'] hlong fun verbose rest => ?_
        rw [frontArguments, harg]
        rfl
    · refine .misuse fun verbose rest => ?_
      rw [frontArguments, harg]
      split <;> simp_all

/-- No arguments of `demo` ask for `eval`. -/
theorem demoArguments_ne_eval (outer verbose verbose' : Bool) (arguments : List String)
    (eval : EvalArguments) : demoArguments outer verbose arguments ≠ .run verbose' (.eval eval) := by
  induction arguments generalizing verbose with
  | nil => simp [demoArguments]
  | cons text rest ih =>
    have hruns := shortFlags_runsNothing false verbose
    unfold demoArguments
    grind [Step.RunsNothing]

/-- No arguments of `help` ask for a command. -/
theorem helpArguments_ne_run (arguments : List String) (verbose : Bool) (command : Command) :
    helpArguments arguments ≠ .run verbose command := by
  unfold helpArguments
  grind

/-- What leads to a command from an argument in front of it: the command, or options that let the
reading go on. -/
theorem frontArguments_cons_run {text : String} {rest : List String} {outer verbose : Bool}
    {command : Command} (h : frontArguments outer (text :: rest) = .run verbose command) :
    (text ≠ "--" ∧ ∀ outer rest,
      frontArguments outer (text :: rest) = evalArguments outer EvalState.start rest) ∨
    (∀ outer rest, frontArguments outer (text :: rest) = demoArguments outer false rest) ∨
    text ≠ "--" ∧ ∃ flags outer', (∀ outer rest,
        frontArguments outer (text :: rest) = frontStep rest (shortFlags true outer flags)) ∧
      shortFlags true outer flags = .go outer' ∧ frontArguments outer' rest = .run verbose command := by
  cases frontRole text with
  | eval hother heq => exact .inl ⟨hother, heq⟩
  | demo heq => exact .inr (.inl heq)
  | help heq =>
    rw [heq] at h
    exact absurd h (helpArguments_ne_run rest _ _)
  | misuse heq =>
    rw [heq] at h
    cases h
  | flags flags hother heq =>
    refine .inr (.inr ⟨hother, flags, ?_⟩)
    rw [heq] at h
    have hruns := shortFlags_runsNothing true outer flags
    cases hstep : shortFlags true outer flags with
    | go outer' =>
      rw [hstep] at h
      exact ⟨outer', heq, rfl, h⟩
    | stop invocation =>
      rw [hstep] at h hruns
      exact absurd h hruns.ne_run

section Switch

variable {arguments : List String} {verbose verbose' front : Bool} {command : Command}
  {flags : List Char}

/-- Where options of one character do not end the arguments, there is none of them, or the switch for the
log, which has not been given before. -/
theorem shortFlags_eq_go (h : shortFlags front verbose flags = .go verbose') :
    (flags = [] ∧ verbose' = verbose) ∨ (verbose = false ∧ verbose' = true) := by
  induction flags generalizing verbose with
  | nil =>
    cases h
    exact .inl ⟨rfl, rfl⟩
  | cons flag flags ih => grind [shortFlags, switch]

/-- Within the log, a command is one with the log. -/
theorem verbose_of_within {invocation : Invocation}
    (h : invocation.within true = .run verbose command) : verbose = true := by
  cases invocation <;> cases h
  rfl

/-- Once the switch for the log has been given, a command is one with the log. -/
theorem verbose_of_frontArguments (h : frontArguments true arguments = .run verbose command) :
    verbose = true := by
  induction arguments with
  | nil => cases h
  | cons text rest ih =>
    obtain ⟨-, heq⟩ | heq | ⟨-, flags, outer, -, hgo, hrest⟩ := frontArguments_cons_run h
    · rw [heq, (evalArguments_eq true rest _).1] at h
      exact verbose_of_within h
    · rw [heq, demoArguments_eq true] at h
      exact verbose_of_within h
    · obtain ⟨-, rfl⟩ | ⟨hfalse, -⟩ := shortFlags_eq_go hgo
      · exact ih hrest
      · cases hfalse

/-- A command without the log is read in the same way behind the switch, as one with the log. -/
theorem frontArguments_of_run (h : frontArguments false arguments = .run false command) :
    frontArguments true arguments = .run true command := by
  induction arguments with
  | nil => cases h
  | cons text rest ih =>
    obtain ⟨-, heq⟩ | heq | ⟨-, flags, outer, heq, hgo, hrest⟩ := frontArguments_cons_run h
    · rw [heq] at h ⊢
      rw [(evalArguments_eq true rest _).1, h]
      rfl
    · rw [heq] at h ⊢
      rw [demoArguments_eq true, h]
      rfl
    · rw [heq]
      obtain ⟨rfl, rfl⟩ | ⟨-, rfl⟩ := shortFlags_eq_go hgo
      · exact ih hrest
      · -- the switch is among the options, so the command has the log
        exact absurd (verbose_of_frontArguments hrest) (by decide)

/-- In front of a command without the log, the switch makes it one with the log. -/
theorem ofArguments_switch (h : Invocation.ofArguments arguments = .run false command) :
    Invocation.ofArguments ("-v" :: arguments) = .run true command := by
  have hswitch : Invocation.ofArguments ("-v" :: arguments) = frontArguments true arguments := rfl
  rw [hswitch]
  exact frontArguments_of_run h

end Switch

section Given

/-- The arguments that give an expression behind some others: the separator, unless it is among these, and
the expression. -/
def behind (arguments : List String) (text : String) : List String :=
  if "--" ∈ arguments then [text] else ["--", text]

/-- An argument that is not the separator does not matter there. -/
theorem behind_cons {first : String} (h : first ≠ "--") (rest : List String) (text : String) :
    behind (first :: rest) text = behind rest text := by
  simp [behind, h.symm]

variable {outer verbose : Bool} {state : EvalState} {arguments : List String} {eval : EvalArguments}
  {given text : String}

/-- An expression that has been read is the command's, as a second one is refused. -/
theorem expression_of_evalPlain (hgiven : state.arguments.expression = some given)
    (h : evalPlain outer state arguments = .run verbose (.eval eval)) :
    eval.expression = some given := by
  cases arguments with
  | nil =>
    cases h
    exact hgiven
  | cons text rest =>
    have hstop : state.takeExpression text = .stop .misuse := by
      simp [EvalState.takeExpression, hgiven]
    rw [evalPlain, hstop] at h
    cases h

/-- Behind the separator, a command that has no expression takes one. -/
theorem evalPlain_append (h : evalPlain outer state arguments = .run verbose (.eval eval))
    (hnone : eval.expression = none) (text : String) :
    evalPlain outer state (arguments ++ [text]) =
      .run verbose (.eval { eval with expression := some text }) := by
  cases arguments with
  | nil =>
    cases h
    simp [evalPlain, EvalState.takeExpression, EvalState.finish, hnone]
  | cons first rest =>
    -- what is there already would be the expression
    rw [evalPlain] at h
    cases hstep : state.takeExpression first with
    | go state' =>
      rw [hstep] at h
      have hfirst : state'.arguments.expression = some first := by
        grind [EvalState.takeExpression]
      cases hnone.symm.trans (expression_of_evalPlain hfirst h)
    | stop invocation =>
      have hruns := state.takeExpression_runsNothing first
      rw [hstep] at h hruns
      exact absurd h hruns.ne_run

/-- A command that has no expression takes one behind its arguments. -/
theorem evalArguments_append (text : String) :
    (evalArguments outer state arguments = .run verbose (.eval eval) → eval.expression = none →
      evalArguments outer state (arguments ++ behind arguments text) =
        .run verbose (.eval { eval with expression := some text })) ∧
    (evalValue outer state arguments = .run verbose (.eval eval) → eval.expression = none →
      evalValue outer state (arguments ++ behind arguments text) =
        .run verbose (.eval { eval with expression := some text })) := by
  induction arguments generalizing state with
  | nil =>
    refine ⟨fun h hnone => ?_, fun h _ => by rw [evalValue] at h; cases h⟩
    cases evalRole "--" with
    | separator _ hplain =>
      have hnil : evalPlain outer state [] = .run verbose (.eval eval) := by
        rw [evalArguments] at h
        exact h
      exact (hplain outer state [text]).trans (evalPlain_append hnil hnone text)
    | nextValue hother | step _ hother => exact absurd rfl hother
  | cons first rest ih =>
    have hstep {step : Step EvalState} (hfirst : first ≠ "--") (hruns : step.RunsNothing)
        (h : evalStep outer step rest = .run verbose (.eval eval)) (hnone : eval.expression = none) :
        evalStep outer step (rest ++ behind (first :: rest) text) =
          .run verbose (.eval { eval with expression := some text }) := by
      cases step with
      | go state =>
        simp only [evalStep, behind_cons hfirst] at h ⊢
        exact ih.1 h hnone
      | stop invocation =>
        simp only [evalStep] at h
        exact absurd h hruns.ne_run
    constructor
    · intro h hnone
      cases evalRole first with
      | separator hfirst heq =>
        rw [heq] at h
        have hbehind : behind (first :: rest) text = [text] := by simp [behind, hfirst]
        rw [hbehind, List.cons_append, heq]
        exact evalPlain_append h hnone text
      | nextValue hfirst heq =>
        rw [heq] at h
        rw [behind_cons hfirst, List.cons_append, heq]
        exact ih.2 h hnone
      | step step hfirst hruns heq =>
        rw [heq] at h
        rw [List.cons_append, heq]
        exact hstep hfirst (hruns state) h hnone
    · intro h hnone
      obtain ⟨hfirst, value, heq⟩ | heq := evalValue_cons first
      · rw [heq] at h
        rw [List.cons_append, heq]
        exact hstep hfirst (state.takeVariables_runsNothing value) h hnone
      · rw [heq] at h
        cases h

/-- The same in front of the command, where the log may have been asked for. -/
theorem frontArguments_append (h : frontArguments outer arguments = .run verbose (.eval eval))
    (hnone : eval.expression = none) (text : String) :
    frontArguments outer (arguments ++ behind arguments text) =
      .run verbose (.eval { eval with expression := some text }) := by
  induction arguments generalizing outer with
  | nil => cases h
  | cons first rest ih =>
    obtain ⟨hfirst, heq⟩ | heq | ⟨hfirst, flags, outer', heq, hgo, hrest⟩ :=
      frontArguments_cons_run h
    · rw [heq] at h
      rw [behind_cons hfirst, List.cons_append, heq]
      exact (evalArguments_append text).1 h hnone
    · rw [heq] at h
      exact absurd h (demoArguments_ne_eval _ _ _ _ _)
    · rw [behind_cons hfirst, List.cons_append, heq, hgo]
      exact ih hrest

end Given

end ScalarExpr.CommandLine
