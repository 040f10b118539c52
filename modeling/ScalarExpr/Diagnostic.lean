import ScalarExpr.Expr.Eval
import ScalarExpr.Expr.Source

/-!
# Diagnostics

What is reported of an error: the stage that found it, a message, and the offset it is attributed
to. With the source at hand, a report shows up to fifteen characters on each side of the offset,
marks a cut with dots, and puts a caret under the character at the offset.
-/

namespace ScalarExpr

/-- The stages that find errors. -/
inductive Stage
  | lex
  | parse
  | type
  | arithmetic
  deriving DecidableEq, Repr

/-- What a log calls an error of a stage. -/
def Stage.describe : Stage → String
  | .lex => "lex error"
  | .parse => "parse error"
  | .type => "type error"
  | .arithmetic => "arithmetic error"

/-- The stage at which an evaluation fails. -/
def EvalError.stage : EvalError → Stage
  | .divisionByZero _ => .arithmetic
  | _ => .type

/-- The stage at which a text turns out to be no expression. -/
def SourceError.stage : SourceError → Stage
  | .lex _ => .lex
  | .parse _ => .parse

/-- A line of source around a character, and the column of that character. -/
structure Excerpt where
  line : List Char
  column : Nat
  deriving DecidableEq, Repr

namespace Excerpt

/-- How many characters are shown on each side. -/
def context : Nat := 15

/-- What stands for characters that are cut off. -/
def dots : List Char := ['.', '.', '.']

/-- The excerpt around an offset; one past the end stands right behind the last character. -/
def around (offset : Nat) (source : List Char) : Excerpt :=
  let point := min offset source.length
  let start := point - context
  let stop := min (point + context) source.length
  let before := if 0 < start then dots else []
  let after := if stop < source.length then dots else []
  { line := before ++ ((source.take stop).drop start ++ after)
    column := before.length + (point - start) }

/-- The line, and below it a caret in the column. -/
def render (excerpt : Excerpt) : String :=
  String.ofList (excerpt.line ++ '\n' :: (List.replicate excerpt.column ' ' ++ ['^']))

end Excerpt

/-- The message and the index, which counts from one and is a machine word, and with a source also its
excerpt. -/
def report (message : String) (offset : Nat) (source : Option String) : String :=
  let head := message ++ " at index " ++ toString (offsetBehind offset 1)
  match source with
  | none => head
  | some source => head ++ "\n" ++ (Excerpt.around offset source.toList).render

/-- An error as it is reported. -/
structure Diagnostic where
  stage : Stage
  message : String
  offset : Nat
  source : Option String
  deriving DecidableEq, Repr

namespace Diagnostic

/-- A diagnostic without a source. -/
def new (stage : Stage) (message : String) (offset : Nat) : Diagnostic :=
  ⟨stage, message, offset, none⟩

/-- The diagnostic with this source in place of any other. -/
def withSource (diagnostic : Diagnostic) (source : String) : Diagnostic :=
  { diagnostic with source := some source }

/-- The excerpt of the source, if there is one. -/
def snippet? (diagnostic : Diagnostic) : Option String :=
  diagnostic.source.map fun source => (Excerpt.around diagnostic.offset source.toList).render

/-- The text of the diagnostic. -/
def render (diagnostic : Diagnostic) : String :=
  report diagnostic.message diagnostic.offset diagnostic.source

/-- The diagnostic of a text that is no expression. -/
def ofSourceError (error : SourceError) : Diagnostic := new error.stage error.message error.offset

/-- The diagnostic of an evaluation that fails. -/
def ofEvalError (error : EvalError) : Diagnostic := new error.stage error.message error.offset

end Diagnostic

/-- The tree of a text, with errors reported against the text. -/
def parseReporting (source : String) : Except Diagnostic Expr :=
  match Expr.ofSource source with
  | .error error => .error ((Diagnostic.ofSourceError error).withSource source)
  | .ok expr => .ok expr

/-- The value of a text under variables, or without any. -/
def evaluateIn (vars : Option Variables) (source : String) : Except Diagnostic Value :=
  match parseReporting source with
  | .error diagnostic => .error diagnostic
  | .ok expr =>
    match expr.eval vars with
    | .error error => .error ((Diagnostic.ofEvalError error).withSource source)
    | .ok value => .ok value

/-- The value of a text under some variables. -/
def evaluateWith (vars : Variables) (source : String) : Except Diagnostic Value :=
  evaluateIn vars source

/-- The value of a text without variables. -/
def evaluate (source : String) : Except Diagnostic Value := evaluateIn none source

/-- A text has the same value without variables as with none bound. -/
theorem evaluate_eq_evaluateWith (source : String) : evaluate source = evaluateWith ∅ source := by
  rw [evaluate, evaluateWith, evaluateIn, evaluateIn]
  simp only [Expr.eval_none]

end ScalarExpr
