import ScalarExpr.Diagnostic
import ScalarExpr.Json.Scalar
import ScalarExpr.Text.Quoted

/-!
# Requests

A request asks for the value of an expression, or only whether its text is one. Line breaks at the
end of the text do not count, and a text of nothing but blanks is no request at all. Each step leaves
a line for the log; the log has no influence on the answer.
-/

namespace ScalarExpr

/-- What is asked of an expression. -/
structure Request where
  expression : String
  /-- Variables, as a JSON text. -/
  variableText : Option String
  /-- Whether the answer is to be JSON text. -/
  json : Bool
  /-- Whether the expression is not to be evaluated. -/
  syntaxOnly : Bool
  deriving DecidableEq, Repr

/-- What a request is answered with. -/
inductive Answer
  | valid
  | output (text : String)
  deriving DecidableEq, Repr

/-- Why a request has no answer. -/
inductive Refusal
  | noInput
  | badVariables (error : LoadError)
  | diagnostic (diagnostic : Diagnostic)
  deriving DecidableEq, Repr

/-- The text of a refusal, with the reason for which a text of variables is no JSON. -/
def Refusal.message (refusal : Refusal) (reason : String := "") : String :=
  match refusal with
  | noInput => "No expression provided. Pass one as an argument or pipe it to stdin."
  | badVariables error => "Invalid variables: " ++ error.message reason
  | diagnostic reported => reported.render

/-- A text without the line breaks at its end. -/
def dropLineBreaks (text : String) : String :=
  String.ofList (text.toList.reverse.dropWhile fun c => c == '\n' || c == '\r').reverse

namespace Request

/-- The text of a value in the form that is asked for. -/
def render (request : Request) (value : Value) : String :=
  if request.json then value.jsonText else value.text

/-- The variables of a request; it may have none. -/
def load (request : Request) : Except LoadError Variables :=
  match request.variableText with
  | none => .ok ∅
  | some text => Variables.load text

/-- The answer for an expression under its variables, and the log. -/
def answerWith (request : Request) (expression : String) (vars : Variables) :
    Except Refusal Answer × List String :=
  match evaluateWith vars expression with
  | .error diagnostic =>
    (.error (.diagnostic diagnostic),
      ["evaluation failed with " ++ diagnostic.stage.describe ++ " at offset " ++
        toString diagnostic.offset])
  | .ok value => (.ok (.output (request.render value)), ["evaluated to " ++ value.kind.name])

/-- The answer to a request, and the log. -/
def run (request : Request) : Except Refusal Answer × List String :=
  let expression := dropLineBreaks request.expression
  if expression.toList.all Text.isBlank then (.error .noInput, [])
  else
    let first := "expression: " ++ Text.quoted expression
    if request.syntaxOnly then
      match parseReporting expression with
      | .error diagnostic => (.error (.diagnostic diagnostic), [first])
      | .ok _ => (.ok .valid, [first, "syntax valid"])
    else
      match request.load with
      | .error error => (.error (.badVariables error), [first])
      | .ok vars =>
        let (answer, log) := request.answerWith expression vars
        (answer, first :: (toString vars.size ++ " variable(s) bound") :: log)

end Request

/-- The expressions that a demonstration evaluates. -/
def demoExpressions : List String :=
  ["1 >= 0 && yes == 'yes'",
   "1 + 1 >= 2 ? yes : no",
   "(1 + 4) * 5 >= (100 * 100) ? '(1 + 4) * 5 = ' + (1 + 4) * 5 : no",
   "(1 + 4) * 5 <= (100 * 1000) ? 'yes: (1 + 4) * 5 = ' + (1 + 4) * 5: no"]

end ScalarExpr
