import ScalarExpr.Operator

/-!
# The table of operators

The tokens that operators are written as, and how tightly these bind, apart from any parser. What a
token is taken for and how the parser ranks the operators is compared with this table once, here;
everything else that is said about operators refers to the table.
-/

namespace ScalarExpr

/-- The token that a prefix operator is written as. -/
def UnaryOp.kind : UnaryOp → TokenKind
  | not => .not
  | plus => .plus
  | minus => .minus

/-- A token is taken for a prefix operator exactly if the operator is written so. -/
theorem UnaryOp.ofKind?_eq_some_iff {kind : TokenKind} {op : UnaryOp} :
    ofKind? kind = some op ↔ kind = op.kind := by
  constructor
  · intro h
    cases kind <;> cases h <;> rfl
  · rintro rfl
    cases op <;> rfl

/-- No prefix operator is written as the end of input. -/
theorem UnaryOp.ne_endOfInput {op : UnaryOp} {kind : TokenKind} (h : kind = op.kind) :
    kind ≠ .endOfInput := by
  rw [← ofKind?_eq_some_iff] at h
  rintro rfl
  cases h

namespace BinaryOp

/-- The token that a binary operator is written as. -/
def kind : BinaryOp → TokenKind
  | or => .or
  | and => .and
  | equal => .equal
  | notEqual => .notEqual
  | comparison .greater => .greater
  | comparison .greaterEqual => .greaterEqual
  | comparison .less => .less
  | comparison .lessEqual => .lessEqual
  | arithmetic .add => .plus
  | arithmetic .subtract => .minus
  | arithmetic .multiply => .star
  | arithmetic .divide => .slash
  | arithmetic .remainder => .percent

/-- A token is taken for a binary operator exactly if the operator is written so. -/
theorem ofKind?_eq_some_iff {kind : TokenKind} {op : BinaryOp} :
    ofKind? kind = some op ↔ kind = op.kind := by
  constructor
  · intro h
    cases kind <;> cases h <;> rfl
  · rintro rfl
    cases op with
    | arithmetic op => cases op <;> rfl
    | comparison op => cases op <;> rfl
    | _ => rfl

/-- No binary operator is written as the end of input. -/
theorem ne_endOfInput {op : BinaryOp} {kind : TokenKind} (h : kind = op.kind) :
    kind ≠ .endOfInput := by
  rw [← ofKind?_eq_some_iff] at h
  rintro rfl
  cases h

/-- Every binary operator has a token of its own. -/
theorem kind_injective : Function.Injective kind := by
  intro op op' h
  exact Option.some.inj ((ofKind?_eq_some_iff.mpr rfl).symm.trans (ofKind?_eq_some_iff.mpr h))

/-- The binary operators, with those together that bind alike and those first that bind least. -/
def tiers : List (List BinaryOp) :=
  [[or], [and], [equal, notEqual],
    [comparison .greater, comparison .greaterEqual, comparison .less, comparison .lessEqual],
    [arithmetic .add, arithmetic .subtract],
    [arithmetic .multiply, arithmetic .divide, arithmetic .remainder]]

/-- How tightly an operator binds: its place in the table. -/
def tier (op : BinaryOp) : Nat := tiers.findIdx (op ∈ ·)

/-- The parser's precedence of an operator is its place in the table. -/
theorem precedence_eq_tier (op : BinaryOp) : op.precedence = op.tier := by
  cases op with
  | arithmetic op => cases op <;> rfl
  | comparison op => cases op <;> rfl
  | _ => rfl

/-- The parser has a level for each entry of the table. -/
theorem levels_eq_length_tiers : levels = tiers.length := rfl

/-- Every operator has a place in the table. -/
theorem tier_lt_length_tiers (op : BinaryOp) : op.tier < tiers.length := by
  rw [← op.precedence_eq_tier, ← levels_eq_length_tiers]
  exact op.precedence_lt_levels

end BinaryOp

end ScalarExpr
