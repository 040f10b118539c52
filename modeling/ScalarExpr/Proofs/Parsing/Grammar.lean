import ScalarExpr.Expr.Parsing
import ScalarExpr.Proofs.Expr.Height
import ScalarExpr.Proofs.Expr.Operators

/-!
# The grammar of expressions

Which tokens make up which tree, said without a parser. A chain of operators that bind alike takes its
last operator as the root, so all of them associate to the left; a tree gets its operators, values and
positions from the tokens.

Parentheses, prefix operators and the branches of a conditional are opened one inside another, and
`opened` counts those around an expression. A bound on this number is part of the grammar. The bound
on the height of a tree is not: it is a property of the tree.
-/

namespace ScalarExpr

/-- The forms of the grammar. An expression of a level has no binary operators outside parentheses and
branches but those in this place of the table or behind it. -/
inductive Form
  | conditional
  | level (tier : Nat)
  | unary
  | primary
  deriving DecidableEq, Repr

/-- The tokens that make up a tree of a form inside a number of open constructs, of which there may
be at most `nesting` at a time. -/
inductive Derives (nesting : Option Nat) : Form → Nat → List Token → Expr → Prop
  | number {opened : Nat} {token : Token} {value : Number} :
    token.kind = .number → Number.ofNumeral? token.text.toList = some value →
    Derives nesting .primary opened [token] (.number value token.offset)
  | text {opened : Nat} {token : Token} :
    token.kind = .string →
    Derives nesting .primary opened [token] (.text (token.contents?.getD "") token.offset)
  | identifier {opened : Nat} {token : Token} :
    token.kind = .identifier →
    Derives nesting .primary opened [token] (.identifier token.text token.offset)
  | parentheses {opened : Nat} {left right : Token} {tokens : List Token} {e : Expr} :
    left.kind = .leftParen → right.kind = .rightParen → (∀ bound ∈ nesting, opened < bound) →
    Derives nesting .conditional (opened + 1) tokens e →
    Derives nesting .primary opened (left :: (tokens ++ [right])) e
  | primary {opened : Nat} {tokens : List Token} {e : Expr} :
    Derives nesting .primary opened tokens e → Derives nesting .unary opened tokens e
  | prefixOp {opened : Nat} {token : Token} {op : UnaryOp} {tokens : List Token} {e : Expr} :
    token.kind = op.kind → (∀ bound ∈ nesting, opened < bound) →
    Derives nesting .unary (opened + 1) tokens e →
    Derives nesting .unary opened (token :: tokens) (.unary op e token.offset)
  | operand {opened tier : Nat} {tokens : List Token} {e : Expr} :
    BinaryOp.tiers.length ≤ tier → Derives nesting .unary opened tokens e →
    Derives nesting (.level tier) opened tokens e
  | tighter {opened tier : Nat} {tokens : List Token} {e : Expr} :
    tier < BinaryOp.tiers.length → Derives nesting (.level (tier + 1)) opened tokens e →
    Derives nesting (.level tier) opened tokens e
  | chain {opened : Nat} {before after : List Token} {token : Token} {op : BinaryOp}
      {left right : Expr} :
    token.kind = op.kind → Derives nesting (.level op.tier) opened before left →
    Derives nesting (.level (op.tier + 1)) opened after right →
    Derives nesting (.level op.tier) opened (before ++ token :: after)
      (.binary op left right token.offset)
  | plain {opened : Nat} {tokens : List Token} {e : Expr} :
    Derives nesting (.level 0) opened tokens e → Derives nesting .conditional opened tokens e
  | choice {opened : Nat} {first second third : List Token} {question colon : Token}
      {condition whenTrue whenFalse : Expr} :
    question.kind = .question → colon.kind = .colon → (∀ bound ∈ nesting, opened < bound) →
    Derives nesting (.level 0) opened first condition →
    Derives nesting .conditional (opened + 1) second whenTrue →
    Derives nesting .conditional (opened + 1) third whenFalse →
    Derives nesting .conditional opened (first ++ question :: (second ++ colon :: third))
      (.conditional condition whenTrue whenFalse)

namespace Derives

variable {nesting : Option Nat} {opened : Nat} {tokens : List Token} {e : Expr}

/-- Beyond the last level there are unary expressions only. -/
theorem unary_of_level {tier : Nat} (h : Derives nesting (.level tier) opened tokens e)
    (htier : BinaryOp.tiers.length ≤ tier) : Derives nesting .unary opened tokens e := by
  cases h with
  | operand _ hunary => exact hunary
  | tighter hlt _ => exact absurd hlt (Nat.not_lt.mpr htier)
  | @chain _ _ _ _ op => exact absurd op.tier_lt_length_tiers (Nat.not_lt.mpr htier)

/-- What is of a level is of every looser one. -/
theorem level_of_le {tier tier' : Nat} (h : Derives nesting (.level tier') opened tokens e)
    (hle : tier ≤ tier') : Derives nesting (.level tier) opened tokens e := by
  induction hle with
  | refl => exact h
  | @step bound _ ih =>
    rcases Nat.lt_or_ge bound BinaryOp.tiers.length with htier | htier
    · exact ih (tighter htier h)
    · exact ih (operand htier (h.unary_of_level (Nat.le_succ_of_le htier)))

/-- A unary expression is one of every level. -/
theorem level (h : Derives nesting .unary opened tokens e) (tier : Nat) :
    Derives nesting (.level tier) opened tokens e :=
  (operand (Nat.le_max_right tier _) h).level_of_le (Nat.le_max_left _ _)

end Derives

end ScalarExpr
