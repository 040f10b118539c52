import ScalarExpr.Proofs.Parsing.Source
import ScalarExpr.Proofs.Token.Contents

/-!
# A tree accounts for its tokens

Every token of an expression is found again in its tree. Literals, names and operators are nodes,
one for each token and in the same order; a conditional stands for one question mark and one colon;
and parentheses come in pairs and leave nothing. So no token is dropped, doubled or moved.

The grammar says what a node repeats of its token, and the scanner says what stands in the text
where the token is. Together they say what is written where a node stands.
-/

namespace ScalarExpr

/-- Whether a token of this kind makes a node of its own. -/
def TokenKind.makesNode : TokenKind → Bool
  | .question | .colon | .leftParen | .rightParen | .endOfInput => false
  | _ => true

/-- A prefix operator makes a node. -/
theorem UnaryOp.makesNode {op : UnaryOp} {kind : TokenKind} (h : kind = op.kind) :
    kind.makesNode = true := by
  rw [← ofKind?_eq_some_iff] at h
  cases kind <;> first | rfl | cases h

/-- A binary operator makes a node. -/
theorem BinaryOp.makesNode {op : BinaryOp} {kind : TokenKind} (h : kind = op.kind) :
    kind.makesNode = true := by
  rw [← ofKind?_eq_some_iff] at h
  cases kind <;> first | rfl | cases h

namespace Expr

/-- The nodes other than conditionals in the order of the text: a prefix operator comes before its
operand, and a binary operator between its operands. -/
def inOrder : Expr → List Expr
  | number value pos => [number value pos]
  | text value pos => [text value pos]
  | identifier name pos => [identifier name pos]
  | unary op operand pos => unary op operand pos :: operand.inOrder
  | binary op left right pos => left.inOrder ++ binary op left right pos :: right.inOrder
  | conditional condition whenTrue whenFalse =>
    condition.inOrder ++ (whenTrue.inOrder ++ whenFalse.inOrder)

/-- Whether a node is a conditional. -/
def isConditional : Expr → Bool
  | conditional .. => true
  | _ => false

/-- The nodes in the order of the text are the subtrees other than conditionals. -/
theorem inOrder_perm (e : Expr) : e.inOrder.Perm (e.subtrees.filter (!·.isConditional)) := by
  induction e with
  | number | text | identifier => exact .refl _
  | unary op operand pos ih => exact ih.cons _
  | binary op left right pos ihLeft ihRight =>
    have hmiddle := (ihLeft.append ihRight).cons (binary op left right pos)
    rw [← List.filter_append] at hmiddle
    exact List.perm_middle.trans hmiddle
  | conditional condition whenTrue whenFalse ih ihTrue ihFalse =>
    have hparts := ih.append (ihTrue.append ihFalse)
    rw [← List.filter_append, ← List.filter_append] at hparts
    exact hparts

/-- A node says what a token does, and stands where it does. -/
def Repeats : Expr → Token → Prop
  | number value pos, token =>
    pos = token.offset ∧ token.kind = .number ∧ Number.ofNumeral? token.text.toList = some value
  | text value pos, token =>
    pos = token.offset ∧ token.kind = .string ∧ value = token.contents?.getD ""
  | identifier name pos, token => pos = token.offset ∧ token.kind = .identifier ∧ name = token.text
  | unary op _ pos, token => pos = token.offset ∧ token.kind = op.kind
  | binary op _ _ pos, token => pos = token.offset ∧ token.kind = op.kind
  | conditional .., _ => False

/-- A node stands where the token does that it repeats. -/
theorem Repeats.pos_eq {node : Expr} {token : Token} (h : node.Repeats token) :
    node.pos = token.offset := by
  cases node with
  | number | text | identifier | unary | binary => exact h.1
  | conditional => exact h.elim

end Expr

namespace Derives

variable {nesting : Option Nat} {form : Form} {opened : Nat} {tokens : List Token} {e : Expr}

/-- The nodes of a tree repeat one by one the tokens that make nodes. -/
theorem repeats (h : Derives nesting form opened tokens e) :
    List.Forall₂ Expr.Repeats e.inOrder (tokens.filter (·.kind.makesNode)) := by
  have hmakes {token : Token} (others : List Token) (hkind : token.kind.makesNode = true) :
      (token :: others).filter (·.kind.makesNode) =
        token :: others.filter (·.kind.makesNode) := List.filter_cons_of_pos hkind
  have hskips {token : Token} (others : List Token) (hkind : token.kind.makesNode = false) :
      (token :: others).filter (·.kind.makesNode) = others.filter (·.kind.makesNode) :=
    List.filter_cons_of_neg (by simp [hkind])
  induction h with
  | number hkind hvalue =>
    rw [hmakes [] (by rw [hkind]; rfl)]
    exact .cons ⟨rfl, hkind, hvalue⟩ .nil
  | text hkind =>
    rw [hmakes [] (by rw [hkind]; rfl)]
    exact .cons ⟨rfl, hkind, rfl⟩ .nil
  | identifier hkind =>
    rw [hmakes [] (by rw [hkind]; rfl)]
    exact .cons ⟨rfl, hkind, rfl⟩ .nil
  | parentheses hleft hright _ _ ih =>
    rw [hskips _ (by rw [hleft]; rfl), List.filter_append, hskips [] (by rw [hright]; rfl),
      List.filter_nil, List.append_nil]
    exact ih
  | primary _ ih | operand _ _ ih | tighter _ _ ih | plain _ ih => exact ih
  | prefixOp hop _ _ ih =>
    rw [hmakes _ (UnaryOp.makesNode hop)]
    exact .cons ⟨rfl, hop⟩ ih
  | chain hop _ _ ihLeft ihRight =>
    rw [List.filter_append, hmakes _ (BinaryOp.makesNode hop)]
    exact List.rel_append ihLeft (.cons ⟨rfl, hop⟩ ihRight)
  | choice hquestion hcolon _ _ _ _ ih ihTrue ihFalse =>
    rw [List.filter_append, hskips _ (by rw [hquestion]; rfl), List.filter_append,
      hskips _ (by rw [hcolon]; rfl)]
    exact List.rel_append ih (List.rel_append ihTrue ihFalse)

end Derives

namespace Expr

/-- What stands in a text where a node does: its numeral, its contents between quotes, its name or
the symbol of its operator. -/
def Written (source : String) : Expr → Token → Prop
  | number value _, token =>
    token.kind = .number ∧ Number.ofNumeral? token.text.toList = some value
  | text value _, token =>
    token.kind = .string ∧ ∃ quote, IsQuote quote ∧ quote ∉ value.toList ∧
      token.text.toList = quote :: (value.toList ++ [quote])
  | identifier name _, token => token.kind = .identifier ∧ token.text = name
  | unary op _ pos, token => token.kind = op.kind ∧ Spells source pos op.symbol
  | binary op _ _ pos, token => token.kind = op.kind ∧ Spells source pos op.symbol
  | conditional .., _ => False

/-- What a node repeats of a token of a text is written there. -/
theorem Repeats.written {source : String} {tokens : List Token} {node : Expr} {token : Token}
    (h : node.Repeats token) (htokens : tokenize source = .ok tokens) (htoken : token ∈ tokens) :
    node.Written source token := by
  cases node with
  | number value pos => exact h.2
  | identifier name pos => exact ⟨h.2.1, h.2.2.symm⟩
  | conditional => exact h.elim
  | unary op operand pos =>
    obtain ⟨rfl, hop⟩ := h
    exact ⟨hop, spells_unary htokens htoken hop⟩
  | binary op left right pos =>
    obtain ⟨rfl, hop⟩ := h
    exact ⟨hop, spells_binary htokens htoken hop⟩
  | text value pos =>
    obtain ⟨-, hkind, rfl⟩ := h
    have hlexeme := (Munches.iff_tokenize.mpr htokens).lexeme rfl token htoken (by simp [hkind])
    rw [hkind] at hlexeme
    obtain ⟨quote, contents, hquote, hcontents, hchars⟩ := hlexeme.quoted
    rw [Token.contents?_of_quoted hkind hchars, Option.getD_some, Written, String.toList_ofList]
    exact ⟨hkind, quote, hquote, hcontents, hchars⟩

end Expr

end ScalarExpr
