import ScalarExpr.Proofs.Parsing.Accepts

/-!
# Where errors and nodes stand

An error of the parser is attributed to a token that it was given or to the end of input. A node of
a tree is attributed to one of the tokens that derive the tree: an operator to a token that stands
for it, and the right operand of a binary operator to a token behind that one.
-/

namespace ScalarExpr

/-- An offset is that of a token or that of the end of input. -/
def Setting.Marks (setting : Setting) (tokens : List Token) (offset : Nat) : Prop :=
  offset = setting.stop ∨ ∃ token ∈ tokens, token.offset = offset

/-- The offset of the first token is that of a token, or else that of the end of input. -/
theorem Setting.marks_offset {setting : Setting} {tokens rest : List Token} (h : rest ⊆ tokens) :
    setting.Marks tokens (setting.offset rest) := by
  cases rest with
  | nil => exact .inl rfl
  | cons token others => exact .inr ⟨token, h List.mem_cons_self, rfl⟩

/-- The error that a reading may have ended with is attributed so. -/
def Setting.MarksError (setting : Setting) (tokens : List Token) : Except ParseError Expr → Prop
  | .ok _ => True
  | .error error => setting.Marks tokens error.offset

namespace Parse

variable {setting : Setting} {task : Task} {opened : Nat} {tokens rest : List Token}
  {result : Except ParseError Expr}

/-- What a reading of some of the given tokens goes on with are again some of them, and its error is
attributed to one of them or to the end of input. -/
theorem Reads.marks (h : Reads setting task opened tokens result rest) {given : List Token}
    (hgiven : tokens ⊆ given) :
    rest ⊆ given ∧ setting.MarksError given result := by
  induction h with
  | conditionFails _ ih => exact ih hgiven
  | plain _ _ ih => exact ⟨(ih hgiven).1, trivial⟩
  | questionTooDeep _ hquestion _ ih =>
    obtain ⟨question, rfl, -, rfl⟩ := questionAt?_eq_some_iff.mp hquestion
    have hrest := List.cons_subset.mp (ih hgiven).1
    exact ⟨hrest.2, .inr ⟨question, hrest.1, rfl⟩⟩
  | whenTrueFails _ hquestion _ _ ih ihTrue =>
    obtain ⟨question, rfl, -, rfl⟩ := questionAt?_eq_some_iff.mp hquestion
    exact ihTrue (List.cons_subset.mp (ih hgiven).1).2
  | colonMissing _ hquestion _ _ _ ih ihTrue =>
    obtain ⟨question, rfl, -, rfl⟩ := questionAt?_eq_some_iff.mp hquestion
    have hrest := (ihTrue (List.cons_subset.mp (ih hgiven).1).2).1
    exact ⟨hrest, Setting.marks_offset hrest⟩
  | whenFalseFails _ hquestion _ _ hcolon _ ih ihTrue ihFalse =>
    obtain ⟨question, rfl, -, rfl⟩ := questionAt?_eq_some_iff.mp hquestion
    obtain ⟨rfl, -⟩ := Closer.skip?_eq_some_iff.mp hcolon
    have hrest := (ihTrue (List.cons_subset.mp (ih hgiven).1).2).1
    exact ihFalse (List.cons_subset.mp hrest).2
  | choice _ hquestion _ _ hcolon _ ih ihTrue ihFalse =>
    obtain ⟨question, rfl, -, rfl⟩ := questionAt?_eq_some_iff.mp hquestion
    obtain ⟨rfl, -⟩ := Closer.skip?_eq_some_iff.mp hcolon
    have hrest := (ihTrue (List.cons_subset.mp (ih hgiven).1).2).1
    exact ⟨(ihFalse (List.cons_subset.mp hrest).2).1, trivial⟩
  | leftFails _ _ ih => exact ih hgiven
  | chained _ _ _ ih ihChain => exact ihChain (ih hgiven).1
  | operand _ _ ih => exact ih hgiven
  | chainEnds _ => exact ⟨hgiven, trivial⟩
  | rightFails hoperator _ ih =>
    obtain ⟨token, rfl, -, -, rfl⟩ := operatorAt?_eq_some_iff.mp hoperator
    exact ih (List.cons_subset.mp hgiven).2
  | tooHigh hoperator _ _ ih =>
    obtain ⟨token, rfl, -, -, rfl⟩ := operatorAt?_eq_some_iff.mp hoperator
    have htokens := List.cons_subset.mp hgiven
    exact ⟨(ih htokens.2).1, .inr ⟨token, htokens.1, rfl⟩⟩
  | chainGoesOn hoperator _ _ _ ih ihChain =>
    obtain ⟨token, rfl, -, -, rfl⟩ := operatorAt?_eq_some_iff.mp hoperator
    exact ihChain (ih (List.cons_subset.mp hgiven).2).1
  | noPrefix _ _ ih => exact ih hgiven
  | prefixFails _ _ _ ih => exact ih (List.cons_subset.mp hgiven).2
  | prefixOp _ _ _ ih => exact ⟨(ih (List.cons_subset.mp hgiven).2).1, trivial⟩
  | endOfInput =>
    exact ⟨hgiven, .inl rfl⟩
  | number | text | identifier => exact ⟨(List.cons_subset.mp hgiven).2, trivial⟩
  | @invalidNumber opened token tokens _ _ =>
    have htokens := List.cons_subset.mp hgiven
    exact ⟨htokens.2, .inr ⟨token, htokens.1, rfl⟩⟩
  | innerFails _ _ _ ih => exact ih (List.cons_subset.mp hgiven).2
  | parenMissing _ _ _ _ ih =>
    have hrest := (ih (List.cons_subset.mp hgiven).2).1
    exact ⟨hrest, Setting.marks_offset hrest⟩
  | parentheses _ _ _ hparen ih =>
    obtain ⟨rfl, -⟩ := Closer.skip?_eq_some_iff.mp hparen
    have hrest := (ih (List.cons_subset.mp hgiven).2).1
    exact ⟨(List.cons_subset.mp hrest).2, trivial⟩
  | @prefixTooDeep opened token tokens op _ _ =>
    exact ⟨hgiven, .inr ⟨token, (List.cons_subset.mp hgiven).1, rfl⟩⟩
  | @parenTooDeep opened token tokens _ _ =>
    exact ⟨hgiven, .inr ⟨token, (List.cons_subset.mp hgiven).1, rfl⟩⟩
  | @unexpected opened token tokens _ _ _ _ =>
    exact ⟨hgiven, .inr ⟨token, (List.cons_subset.mp hgiven).1, rfl⟩⟩

end Parse

/-- The error of a parse is attributed to a token of the stream or to the end of input. -/
theorem TokenStream.marks_parse {limits : Limits} {stream : TokenStream} {error : ParseError}
    (h : (stream.parse limits).1 = .error error) :
    Setting.Marks ⟨limits, stream.stop⟩ stream.tokens error.offset := by
  rcases parse_error_cases h with hreads | ⟨e, token, rest, -, rfl, hreads⟩
  · exact (hreads.marks (List.Subset.refl _)).2
  · exact .inr ⟨token, (hreads.marks (List.Subset.refl _)).1 List.mem_cons_self, rfl⟩

/-- What the tokens of a tree show of a node: an operator stands at a token that stands for it, and
the right operand of a binary operator behind that token. -/
def Stands (tokens : List Token) : Expr → Prop
  | .unary op _ pos => ∃ token ∈ tokens, token.offset = pos ∧ token.kind = op.kind
  | .binary op _ right pos =>
    ∃ before token after, tokens = before ++ token :: after ∧ token.offset = pos ∧
      token.kind = op.kind ∧ ∃ other ∈ after, other.offset = right.pos
  | _ => True

/-- What some tokens show, they show among others. -/
theorem Stands.among {tokens : List Token} {node : Expr} (h : Stands tokens node)
    (before after : List Token) : Stands (before ++ (tokens ++ after)) node := by
  cases node with
  | unary op operand pos =>
    obtain ⟨token, htoken, hoffset, hop⟩ := h
    exact ⟨token, by simp [htoken], hoffset, hop⟩
  | binary op left right pos =>
    obtain ⟨before', token, after', rfl, hoffset, hop, other, hother, hright⟩ := h
    exact ⟨before ++ before', token, after' ++ after, by simp, hoffset, hop, other,
      by simp [hother], hright⟩
  | number | text | identifier | conditional => trivial

namespace Derives

variable {nesting : Option Nat} {form : Form} {opened : Nat} {tokens : List Token} {e : Expr}

/-- A tree is attributed to one of its tokens. -/
theorem pos_mem (h : Derives nesting form opened tokens e) :
    ∃ token ∈ tokens, token.offset = e.pos := by
  induction h with
  | number | text | identifier => exact ⟨_, List.mem_singleton_self _, rfl⟩
  | parentheses _ _ _ _ ih =>
    obtain ⟨token, htoken, hoffset⟩ := ih
    exact ⟨token, by simp [htoken], hoffset⟩
  | primary _ ih | operand _ _ ih | tighter _ _ ih | plain _ ih => exact ih
  | prefixOp _ _ _ _ => exact ⟨_, List.mem_cons_self, rfl⟩
  | chain _ _ _ _ _ => exact ⟨_, by simp, rfl⟩
  | choice _ _ _ _ _ _ ih _ _ =>
    obtain ⟨token, htoken, hoffset⟩ := ih
    exact ⟨token, by simp [htoken], hoffset⟩

/-- Every node of a tree stands where its tokens show it. -/
theorem stands (h : Derives nesting form opened tokens e) :
    ∀ node ∈ e.subtrees, Stands tokens node := by
  induction h with
  | number | text | identifier =>
    intro node hnode
    cases List.mem_singleton.mp hnode
    trivial
  | @parentheses opened left right tokens e _ _ _ _ ih =>
    exact fun node hnode => (ih node hnode).among [left] [right]
  | primary _ ih | operand _ _ ih | tighter _ _ ih | plain _ ih => exact ih
  | @prefixOp opened token op tokens e hop _ _ ih =>
    intro node hnode
    rcases List.mem_cons.mp hnode with rfl | hnode
    · exact ⟨token, List.mem_cons_self, rfl, hop⟩
    · simpa using (ih node hnode).among [token] []
  | @chain opened before after token op left right hop _ hright ihLeft ihRight =>
    intro node hnode
    simp only [Expr.subtrees, List.mem_cons, List.mem_append] at hnode
    rcases hnode with rfl | hnode | hnode
    · exact ⟨before, token, after, rfl, rfl, hop, hright.pos_mem⟩
    · exact (ihLeft node hnode).among [] (token :: after)
    · simpa using (ihRight node hnode).among (before ++ [token]) []
  | @choice opened first second third question colon condition whenTrue whenFalse _ _ _ _ _ _
      ih ihTrue ihFalse =>
    intro node hnode
    simp only [Expr.subtrees, List.mem_cons, List.mem_append] at hnode
    rcases hnode with rfl | hnode | hnode | hnode
    · trivial
    · exact (ih node hnode).among [] (question :: (second ++ colon :: third))
    · simpa using (ihTrue node hnode).among (first ++ [question]) (colon :: third)
    · simpa using (ihFalse node hnode).among (first ++ question :: (second ++ [colon])) []

end Derives

end ScalarExpr
