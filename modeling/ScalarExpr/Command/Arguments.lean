/-!
# Command-line arguments

The arguments name a command, `eval` or `demo`, and its options. The first argument that is out of
place makes the whole line a misuse, and so does an option that is given twice; a request for help or
for the version is answered as soon as it is met. The switch for the log may stand once before the
command and once behind it.

An argument that starts with a dash is an option unless it follows `--` or is nothing but a dash.
Options are not abbreviated. An option that takes a value takes it from behind an equals sign or from
the next argument; one that takes none refuses an equals sign.
-/

namespace ScalarExpr.CommandLine

/-- What the command `eval` is given. -/
structure EvalArguments where
  expression : Option String
  variableText : Option String
  json : Bool
  syntaxOnly : Bool
  deriving DecidableEq, Repr

/-- The commands. -/
inductive Command
  | eval (arguments : EvalArguments)
  | demo
  deriving DecidableEq, Repr

/-- What a list of arguments asks for. -/
inductive Invocation
  | run (verbose : Bool) (command : Command)
  | version
  | help
  | misuse
  deriving DecidableEq, Repr

/-- An argument, by its form. -/
inductive Argument
  /-- The mark after which no argument is an option. -/
  | separator
  /-- An option with a name, and a value if there is an equals sign. -/
  | long (name : String) (value : Option String)
  /-- Options of one character each. -/
  | short (flags : List Char)
  /-- Anything else. -/
  | plain (text : String)
  deriving DecidableEq, Repr

/-- The form of an argument. -/
def Argument.ofString (text : String) : Argument :=
  match text.toList with
  | ['-', '-'] => separator
  | '-' :: '-' :: rest =>
    match rest.dropWhile (· ≠ '=') with
    | [] => long (String.ofList rest) none
    | _ :: value => long (String.ofList (rest.takeWhile (· ≠ '='))) (some (String.ofList value))
  | '-' :: flag :: flags => short (flag :: flags)
  | _ => plain text

/-- What one step through the arguments leads to: a state in which to go on, or an end. -/
inductive Step (σ : Type)
  | go (state : σ)
  | stop (invocation : Invocation)

/-- The switch for the log, which may be given once. -/
def switch (verbose : Bool) : Step Bool := if verbose then .stop .misuse else .go true

/-- Options of one character; only in front of the command does one of them ask for the version. -/
def shortFlags (front : Bool) (verbose : Bool) : List Char → Step Bool
  | [] => .go verbose
  | flag :: flags =>
    if flag = 'v' then
      match switch verbose with
      | .go verbose => shortFlags front verbose flags
      | .stop invocation => .stop invocation
    else if flag = 'h' then .stop .help
    else if flag = 'V' ∧ front then .stop .version
    else .stop .misuse

/-- What has been read behind the command `eval`. -/
structure EvalState where
  arguments : EvalArguments
  verbose : Bool
  deriving DecidableEq, Repr

namespace EvalState

/-- Nothing has been read. -/
def start : EvalState := ⟨⟨none, none, false, false⟩, false⟩

/-- The invocation when all arguments have been read. -/
def finish (outer : Bool) (state : EvalState) : Invocation :=
  .run (outer || state.verbose) (.eval state.arguments)

/-- Takes the expression, of which there is at most one. -/
def takeExpression (state : EvalState) (text : String) : Step EvalState :=
  if state.arguments.expression.isSome then .stop .misuse
  else .go { state with arguments := { state.arguments with expression := some text } }

/-- Takes the variables, which are given at most once. -/
def takeVariables (state : EvalState) (text : String) : Step EvalState :=
  if state.arguments.variableText.isSome then .stop .misuse
  else .go { state with arguments := { state.arguments with variableText := some text } }

/-- Takes an option without a value. -/
def takeFlag (state : EvalState) (name : String) : Step EvalState :=
  if name = "json" then
    if state.arguments.json then .stop .misuse
    else .go { state with arguments := { state.arguments with json := true } }
  else if name = "syntax-only" then
    if state.arguments.syntaxOnly then .stop .misuse
    else .go { state with arguments := { state.arguments with syntaxOnly := true } }
  else if name = "verbose" then
    if state.verbose then .stop .misuse else .go { state with verbose := true }
  else if name = "help" then .stop .help
  else .stop .misuse

/-- Takes options of one character. -/
def takeShort (state : EvalState) (flags : List Char) : Step EvalState :=
  match shortFlags false state.verbose flags with
  | .go verbose => .go { state with verbose := verbose }
  | .stop invocation => .stop invocation

end EvalState

/-- The arguments of `eval` after the separator. -/
def evalPlain (outer : Bool) (state : EvalState) : List String → Invocation
  | [] => state.finish outer
  | text :: rest =>
    match state.takeExpression text with
    | .go state => evalPlain outer state rest
    | .stop invocation => invocation

mutual

/-- The arguments of `eval`. -/
def evalArguments (outer : Bool) (state : EvalState) : List String → Invocation
  | [] => state.finish outer
  | text :: rest =>
    match Argument.ofString text with
    | .separator => evalPlain outer state rest
    | .long "vars" none => evalValue outer state rest
    | .long "vars" (some value) => evalStep outer (state.takeVariables value) rest
    | .long _ (some _) => .misuse
    | .long name none => evalStep outer (state.takeFlag name) rest
    | .short flags => evalStep outer (state.takeShort flags) rest
    | .plain text => evalStep outer (state.takeExpression text) rest

/-- The arguments of `eval` after a step. -/
def evalStep (outer : Bool) (step : Step EvalState) (rest : List String) : Invocation :=
  match step with
  | .go state => evalArguments outer state rest
  | .stop invocation => invocation

/-- The arguments of `eval` from the value of the variables on. -/
def evalValue (outer : Bool) (state : EvalState) : List String → Invocation
  | [] => .misuse
  | text :: rest =>
    match Argument.ofString text with
    | .plain text => evalStep outer (state.takeVariables text) rest
    | _ => .misuse

end

/-- The arguments of `demo`. -/
def demoArguments (outer verbose : Bool) : List String → Invocation
  | [] => .run (outer || verbose) .demo
  | text :: rest =>
    match Argument.ofString text with
    | .separator => if rest = [] then .run (outer || verbose) .demo else .misuse
    | .long "verbose" none => if verbose then .misuse else demoArguments outer true rest
    | .long "help" none => .help
    | .short flags =>
      match shortFlags false verbose flags with
      | .go verbose => demoArguments outer verbose rest
      | .stop invocation => invocation
    | _ => .misuse

/-- The arguments of `help`: nothing, or one command. -/
def helpArguments : List String → Invocation
  | [] => .help
  | [name] => if name = "eval" ∨ name = "demo" ∨ name = "help" then .help else .misuse
  | _ => .misuse

/-- The arguments in front of the command. -/
def frontArguments (verbose : Bool) : List String → Invocation
  | [] => .misuse
  | text :: rest =>
    match Argument.ofString text with
    | .plain "eval" => evalArguments verbose EvalState.start rest
    | .plain "demo" => demoArguments verbose false rest
    | .plain "help" => helpArguments rest
    | .long "verbose" none => if verbose then .misuse else frontArguments true rest
    | .long "version" none => .version
    | .long "help" none => .help
    | .short flags =>
      match shortFlags true verbose flags with
      | .go verbose => frontArguments verbose rest
      | .stop invocation => invocation
    | _ => .misuse

/-- What a list of arguments asks for. -/
def Invocation.ofArguments (arguments : List String) : Invocation := frontArguments false arguments

end ScalarExpr.CommandLine
