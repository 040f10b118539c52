import ScalarExpr.Command.Arguments
import ScalarExpr.Command.Request

/-!
# Running a command

The exit code and the two texts that a command line results in, as a function of the arguments and of
the standard input. The answer goes to the standard output; the log, where it is asked for, and after
it an error go to the standard error output.

What a reader of JSON says of a text that it refuses is left to the reader: `explain` stands for it.
-/

namespace ScalarExpr.CommandLine

/-- The standard input. -/
inductive Input
  /-- A terminal, which no expression is read from. -/
  | terminal
  /-- An input that cannot be read to its end as a text, and why. -/
  | unreadable (reason : String)
  | text (text : String)
  deriving DecidableEq, Repr

/-- Why there is no expression that could be requested, or why a request has no answer. -/
inductive Failure
  | unreadable (reason : String)
  | refused (refusal : Refusal)
  deriving DecidableEq, Repr

/-- The text of a failure, with the reason for which a text of variables is no JSON. -/
def Failure.message (failure : Failure) (reason : String) : String :=
  match failure with
  | unreadable error => "IO error: " ++ error
  | refused refusal => refusal.message reason

/-- The expression that is among the arguments of `eval`, or else on the standard input. -/
def EvalArguments.expressionFrom (arguments : EvalArguments) (input : Input) :
    Except Failure String :=
  match arguments.expression, input with
  | some text, _ => .ok text
  | none, .text text => .ok text
  | none, .unreadable reason => .error (.unreadable reason)
  | none, .terminal => .error (.refused .noInput)

/-- What is said of a text of variables that is no JSON. -/
def EvalArguments.reason (explain : String → String) (arguments : EvalArguments) : String :=
  arguments.variableText.elim "" explain

/-- What a command leaves behind. -/
structure Outcome where
  exitCode : Nat
  stdout : String
  stderr : String
  deriving DecidableEq, Repr

/-- How the command line is used. -/
def usage : String :=
  "Usage: miniexpr [-v] eval [EXPRESSION] [--vars JSON] [--json] [--syntax-only]\n" ++
  "       miniexpr [-v] demo\n" ++
  "       miniexpr --help | --version\n"

/-- The name and version of the program. -/
def versionLine : String := "miniexpr 0.1.0\n"

/-- The lines of a log, if it is asked for. -/
def logText (verbose : Bool) (target : String) (lines : List String) : String :=
  if verbose then String.join (lines.map fun line => "[DEBUG " ++ target ++ "] " ++ line ++ "\n")
  else ""

/-- The answer of `eval` or the reason why there is none, and the log. -/
def answerEval (arguments : EvalArguments) (input : Input) : Except Failure Answer × List String :=
  match arguments.expressionFrom input with
  | .error failure => (.error failure, [])
  | .ok expression =>
    let request : Request :=
      { expression := expression
        variableText := arguments.variableText
        json := arguments.json
        syntaxOnly := arguments.syntaxOnly }
    let (answer, log) := request.run
    (answer.mapError .refused, log)

/-- The outcome of `eval`. -/
def runEval (explain : String → String) (verbose : Bool) (arguments : EvalArguments)
    (input : Input) : Outcome :=
  let (answer, log) := answerEval arguments input
  let logged := logText verbose "miniexpr::cli::check" log
  match answer with
  | .ok .valid => ⟨0, "Syntax is valid\n", logged⟩
  | .ok (.output text) => ⟨0, text ++ "\n", logged⟩
  | .error failure => ⟨1, "", logged ++ (failure.message (arguments.reason explain) ++ "\n")⟩

/-- What a demonstration prints for an expression. -/
def demoText (expression : String) : String :=
  match evaluate expression with
  | .ok value => expression ++ "\n=> " ++ value.text ++ "\n\n"
  | .error diagnostic => expression ++ "\n" ++ diagnostic.render ++ "\n\n"

/-- The outcome of `demo`. -/
def runDemo (verbose : Bool) : Outcome :=
  ⟨0, String.join (demoExpressions.map demoText),
    logText verbose "miniexpr"
      (demoExpressions.map fun expression => "demo expression: " ++ Text.quoted expression)⟩

/-- The outcome of an invocation. -/
def Invocation.outcome (explain : String → String) (input : Input) : Invocation → Outcome
  | run verbose (.eval arguments) => runEval explain verbose arguments input
  | run verbose .demo => runDemo verbose
  | version => ⟨0, versionLine, ""⟩
  | help => ⟨0, usage, ""⟩
  | misuse => ⟨2, "", usage⟩

/-- Whether an invocation reads the standard input. -/
def Invocation.readsInput : Invocation → Bool
  | run _ (.eval arguments) => arguments.expression.isNone
  | _ => false

/-- The outcome of a list of arguments. -/
def outcomeOn (explain : String → String) (arguments : List String) (input : Input) : Outcome :=
  (Invocation.ofArguments arguments).outcome explain input

/-- The reason that this program gives for a text that is no JSON. -/
def plainly (_ : String) : String := "malformed text"

/-- The outcome of this program where a text is its standard input. -/
def outcome (arguments : List String) (stdin : String) : Outcome :=
  outcomeOn plainly arguments (.text stdin)

end ScalarExpr.CommandLine
