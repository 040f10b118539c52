import ScalarExpr.Main
import ScalarExpr.Proofs.Parsing.Reads
import ScalarExpr.Proofs.Parsing.Accepts
import ScalarExpr.Proofs.Parsing.Viable
import ScalarExpr.Proofs.Parsing.Account
import ScalarExpr.Proofs.Diagnostic.Attribution
import ScalarExpr.Proofs.Number.Fallback
import ScalarExpr.Proofs.Expr.Exact
import ScalarExpr.Proofs.Diagnostic.Dependence
import ScalarExpr.Proofs.Expr.Descent
import ScalarExpr.Proofs.Parsing.Depth
import ScalarExpr.Proofs.Parsing.Cursor
import ScalarExpr.Proofs.Parsing.Reuse
import ScalarExpr.Proofs.Expr.Relocation
import ScalarExpr.Proofs.Parsing.Relocation
import ScalarExpr.Proofs.Token.Respacing
import ScalarExpr.Proofs.Diagnostic.Respacing
import ScalarExpr.Proofs.Expr.Substitution
import ScalarExpr.Proofs.Parsing.Place
import ScalarExpr.Proofs.Parsing.Excess
import ScalarExpr.Proofs.Token.Trailing
import ScalarExpr.Proofs.Command.Agreement
import ScalarExpr.Proofs.Json.Quoted
import ScalarExpr.Proofs.Number.Digits
import ScalarExpr.Proofs.Number.Shortest
import ScalarExpr.Proofs.Number.Roundtrip
import ScalarExpr.Proofs.Json.Numeral
import ScalarExpr.Proofs.Json.Written
import ScalarExpr.Proofs.Json.Scaled
import ScalarExpr.Proofs.Json.Reader
import ScalarExpr.Proofs.Json.Grammar
import ScalarExpr.Proofs.Json.Recognized
import ScalarExpr.Proofs.Json.ReadBack
import ScalarExpr.Proofs.Json.Members
import ScalarExpr.Proofs.Text.ByteOrder
import ScalarExpr.Proofs.Json.Loading
import ScalarExpr.Proofs.Command.Feedback
import ScalarExpr.Proofs.Parsing.Handover
import ScalarExpr.Proofs.Parsing.Precedence
import ScalarExpr.Proofs.Diagnostic.Excerpt
import ScalarExpr.Proofs.Diagnostic.Enclosed
import ScalarExpr.Proofs.Number.Equality
import ScalarExpr.Proofs.Number.Canonical
import ScalarExpr.Proofs.Value.Equality
import ScalarExpr.Proofs.Expr.Chain
import ScalarExpr.Proofs.Expr.Closure
import ScalarExpr.Proofs.Expr.Absence
import ScalarExpr.Proofs.Token.Power
import ScalarExpr.Proofs.Parsing.Leaf
import ScalarExpr.Proofs.Diagnostic.Verbatim
import ScalarExpr.Proofs.Number.Overflow
import ScalarExpr.Proofs.Number.Order
import ScalarExpr.Proofs.Number.Plain
import ScalarExpr.Proofs.Number.Literal
import ScalarExpr.Proofs.Diagnostic.Numeral
import ScalarExpr.Proofs.Parsing.Numeral
import ScalarExpr.Proofs.Diagnostic.FloatText
import ScalarExpr.Proofs.Text.Slice
import ScalarExpr.Proofs.Parsing.SoleString
import ScalarExpr.Proofs.Expr.Search
import ScalarExpr.Proofs.Parsing.LoopHeight
import ScalarExpr.Proofs.Command.Arguments
import ScalarExpr.Proofs.Command.Log
import ScalarExpr.Proofs.Command.Channels
