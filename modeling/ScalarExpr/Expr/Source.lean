import ScalarExpr.Expr.Parsing
import ScalarExpr.Token.Scanner

/-!
# Reading trees from a text

All tokens are read before the first of them is put into a tree, so a fault of the text anywhere
comes before a fault of the grammar.
-/

namespace ScalarExpr

/-- Why a text is no expression: it has no tokens, or its tokens make none. -/
inductive SourceError
  | lex (error : LexError)
  | parse (error : ParseError)
  deriving DecidableEq, Repr

namespace SourceError

/-- The offset that the error is attributed to. -/
def offset : SourceError → Nat
  | lex error => error.offset
  | parse error => error.offset

/-- The text of the error. -/
def message : SourceError → String
  | lex error => error.message
  | parse error => error.message

end SourceError

namespace Expr

/-- The tree of what a scanner has still to read. -/
def ofScanner (limits : Limits) (scanner : Scanner) : Except SourceError Expr :=
  match scanner.tokens with
  | .error error => .error (.lex error)
  | .ok tokens =>
    match ((TokenStream.ofTokens tokens).parse limits).1 with
    | .error error => .error (.parse error)
    | .ok expr => .ok expr

/-- The tree of a text. -/
def ofSource (source : String) : Except SourceError Expr :=
  ofScanner Limits.standard (Scanner.ofText source)

end Expr

end ScalarExpr
