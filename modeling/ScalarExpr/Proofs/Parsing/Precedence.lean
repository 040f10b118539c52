import ScalarExpr.Proofs.Parsing.Excess

/-!
# Rows of operands

Operands with a binary operator between every two of them have a tree that is found from the top. Of
the operators that bind least the last one is the root, and the operands of the root are the trees of
what is before it and of what is behind it. The parser comes from below instead. It reads the operators
level by level, those that bind most first, and joins those of one level from the left.

Both find the same tree. The parser makes it unless it is too high, and it is refused just then: no
operator of a row opens a construct, so that nothing but the height is ever asked.

How tightly the operators bind is their place in the table of the grammar.
-/

namespace ScalarExpr

/-- The tree of a token on its own. A numeral that cannot be read has none, and neither has a token
that is neither a literal nor a name. -/
def Token.leaf? (token : Token) : Option Expr :=
  match token.kind with
  | .number => (Number.ofNumeral? token.text.toList).map (.number · token.offset)
  | .string => some (.text (token.contents?.getD "") token.offset)
  | .identifier => some (.identifier token.text token.offset)
  | _ => none

/-- A binary operator has no tree on its own. -/
theorem Token.leaf?_eq_none_of_operator {token : Token} {op : BinaryOp}
    (h : token.kind = op.kind) : token.leaf? = none := by
  rw [← BinaryOp.ofKind?_eq_some_iff] at h
  unfold leaf?
  split <;> simp_all [BinaryOp.ofKind?]

/-- A token that opens a construct has no tree on its own. -/
theorem Token.leaf?_eq_none_of_opens {token : Token} {place : Place} (h : place.Opens token.kind) :
    token.leaf? = none := by
  unfold leaf?
  split <;> cases place <;> simp_all [Place.Opens, ← UnaryOp.ofKind?_eq_some_iff, UnaryOp.ofKind?]

/-- A literal or a name, and its tree. -/
structure Operand where
  token : Token
  tree : Expr
  isLeaf : token.leaf? = some tree

/-- A binary operator and the operand behind it. -/
structure Link where
  token : Token
  op : BinaryOp
  isOperator : token.kind = op.kind
  operand : Operand

/-- The last of the operators that bind least, between what is before it and what is behind it. -/
structure Split (links : List Link) where
  before : List Link
  loosest : Link
  after : List Link
  links_eq : links = before ++ loosest :: after
  /-- No operator before it binds less. -/
  before_le : ∀ link ∈ before, loosest.op.tier ≤ link.op.tier
  /-- Every operator behind it binds more. -/
  after_lt : ∀ link ∈ after, loosest.op.tier < link.op.tier

namespace Split

variable {links : List Link}

/-- The operator of a split is one of those that are split. -/
theorem loosest_mem (split : Split links) : split.loosest ∈ links := by
  rw [congrArg (split.loosest ∈ ·) split.links_eq]
  exact List.mem_append_right _ List.mem_cons_self

/-- What is before the operator is one of them, too. -/
theorem mem_of_mem_before (split : Split links) {link : Link} (h : link ∈ split.before) :
    link ∈ links := by
  rw [congrArg (link ∈ ·) split.links_eq]
  exact List.mem_append_left _ h

/-- What is behind the operator is one of them, too. -/
theorem mem_of_mem_after (split : Split links) {link : Link} (h : link ∈ split.after) :
    link ∈ links := by
  rw [congrArg (link ∈ ·) split.links_eq]
  exact List.mem_append_right _ (List.mem_cons_of_mem _ h)

/-- The operator of a split binds no more than any of those that are split. -/
theorem loosest_le (split : Split links) : ∀ link ∈ links, split.loosest.op.tier ≤ link.op.tier := by
  intro link hlink
  rw [split.links_eq, List.mem_append, List.mem_cons] at hlink
  rcases hlink with hbefore | rfl | hafter
  · exact split.before_le link hbefore
  · exact Nat.le_refl _
  · exact Nat.le_of_lt (split.after_lt link hafter)

/-- All others are before the operator or behind it. -/
theorem length_eq (split : Split links) :
    links.length = split.before.length + split.after.length + 1 := by
  rw [congrArg List.length split.links_eq, List.length_append, List.length_cons, Nat.add_assoc]

/-- A split has no more before its operator than another one. The operator of the other one would be
there and bind no less than its own, which would be behind that in the other one and bind more. -/
theorem eq_nil_of_before_eq {split split' : Split links} {extra : List Link}
    (hbefore : split'.before = split.before ++ extra)
    (hafter : split.loosest :: split.after = extra ++ split'.loosest :: split'.after) : extra = [] := by
  cases extra with
  | nil => rfl
  | cons link extra =>
    rw [List.cons_append, List.cons.injEq] at hafter
    obtain ⟨rfl, hafter⟩ := hafter
    have hle := split'.before_le split.loosest (by simp [hbefore])
    have hlt := split.after_lt split'.loosest (by simp [hafter])
    omega

/-- Operators are split in one way. -/
instance : Subsingleton (Split links) where
  allEq split split' := by
    have hsame := split.links_eq.symm.trans split'.links_eq
    rcases List.append_eq_append_iff.mp hsame with
      ⟨extra, hbefore, hafter⟩ | ⟨extra, hbefore, hafter⟩ <;>
    · cases eq_nil_of_before_eq hbefore hafter
      cases split
      cases split'
      simp_all

/-- Operators are split from the end: one that binds less than all behind it takes the place of the one
that was found there. -/
def of : (link : Link) → (rest : List Link) → Split (link :: rest)
  | link, [] => ⟨[], link, [], rfl, List.forall_mem_nil _, List.forall_mem_nil _⟩
  | link, next :: rest =>
    let split := of next rest
    if h : split.loosest.op.tier ≤ link.op.tier then
      { before := link :: split.before
        loosest := split.loosest
        after := split.after
        links_eq := congrArg (link :: ·) split.links_eq
        before_le := List.forall_mem_cons.mpr ⟨h, split.before_le⟩
        after_lt := split.after_lt }
    else
      { before := []
        loosest := link
        after := next :: rest
        links_eq := rfl
        before_le := List.forall_mem_nil _
        after_lt := fun other hother =>
          Nat.lt_of_lt_of_le (Nat.lt_of_not_le h) (split.loosest_le other hother) }

end Split

namespace Operand

/-- The tokens of an operand and of the operators and operands behind it. -/
def row (first : Operand) (links : List Link) : List Token :=
  first.token :: links.flatMap fun link => [link.token, link.operand.token]

/-- The tree of a row, found from the top. -/
def reference (first : Operand) : List Link → Expr
  | [] => first.tree
  | link :: rest =>
    .binary (Split.of link rest).loosest.op (first.reference (Split.of link rest).before)
      ((Split.of link rest).loosest.operand.reference (Split.of link rest).after)
      (Split.of link rest).loosest.token.offset
termination_by links => links.length
decreasing_by
  all_goals
    have hlength := (Split.of link rest).length_eq
    omega

/-- What holds of a single operand, and of a row if it holds of the two that a split takes it apart
into, holds of every row. -/
@[elab_as_elim]
theorem splitInduction {motive : Operand → List Link → Prop} (single : ∀ first, motive first [])
    (split : ∀ (first : Operand) (links : List Link) (split : Split links),
      motive first split.before → motive split.loosest.operand split.after → motive first links)
    (first : Operand) (links : List Link) : motive first links := by
  induction first, links using reference.induct with
  | case1 first => exact single first
  | case2 first link rest ihBefore ihAfter => exact split first _ (Split.of link rest) ihBefore ihAfter

section Row

variable {first : Operand} {links : List Link}

/-- A split takes a row apart into two rows. -/
theorem row_eq (first : Operand) (split : Split links) :
    first.row links =
      first.row split.before ++ split.loosest.token :: split.loosest.operand.row split.after := by
  rw [congrArg first.row split.links_eq]
  simp [row]

/-- A split says what the root is, however it has been found. -/
theorem reference_eq (first : Operand) (split : Split links) :
    first.reference links =
      .binary split.loosest.op (first.reference split.before)
        (split.loosest.operand.reference split.after) split.loosest.token.offset := by
  cases links with
  | nil => simpa using split.links_eq
  | cons link rest => rw [reference, Subsingleton.elim split (Split.of link rest)]

/-- An operand is a primary expression. -/
theorem derives (operand : Operand) (nesting : Option Nat) (opened : Nat) :
    Derives nesting .primary opened [operand.token] operand.tree := by
  obtain ⟨token, tree, hleaf⟩ := operand
  unfold Token.leaf? at hleaf
  split at hleaf
  next hkind =>
    obtain ⟨value, hvalue, rfl⟩ := Option.map_eq_some_iff.mp hleaf
    exact .number hkind hvalue
  next hkind =>
    cases hleaf
    exact .text hkind
  next hkind =>
    cases hleaf
    exact .identifier hkind
  next => cases hleaf

/-- An operand is a tree of one node. -/
theorem children_tree (operand : Operand) : operand.tree.children = [] := by
  have hderives := operand.derives none 0
  generalize htokens : [operand.token] = tokens, operand.tree = e at hderives ⊢
  cases hderives with
  | number | text | identifier => rfl
  | parentheses => simp at htokens

/-- An operand is as low as a tree can be. -/
theorem longestPath_tree (operand : Operand) : operand.tree.longestPath = 1 := by
  have hchildren := operand.children_tree
  cases htree : operand.tree <;> simp_all [Expr.children, Expr.longestPath]

/-- A row derives its tree at every level that none of its operators is below. -/
theorem derives_reference {tier : Nat} (nesting : Option Nat) (opened : Nat)
    (h : ∀ link ∈ links, tier ≤ link.op.tier) :
    Derives nesting (.level tier) opened (first.row links) (first.reference links) := by
  induction first, links using splitInduction generalizing tier with
  | single first =>
    rw [reference]
    exact (Derives.primary (first.derives nesting opened)).level tier
  | split first links split ihBefore ihAfter =>
    have hloosest := h _ split.loosest_mem
    have hbefore := ihBefore split.before_le
    have hafter := ihAfter split.after_lt
    rw [first.row_eq split, first.reference_eq split]
    exact (Derives.chain split.loosest.isOperator hbefore hafter).level_of_le hloosest

/-- No binary operator of a row is too high if the whole tree is not. -/
theorem binariesWithin_reference {bound : Nat} (hbound : 1 ≤ bound) :
    (first.reference links).BinariesWithin bound ↔ (first.reference links).longestPath ≤ bound := by
  induction first, links using splitInduction with
  | single first =>
    rw [reference, first.longestPath_tree]
    exact iff_of_true (Expr.binariesWithin_of_children_eq_nil first.children_tree) hbound
  | split first links split ihBefore ihAfter =>
    rw [first.reference_eq split, Expr.binariesWithin_binary, ihBefore, ihAfter, Expr.longestPath]
    omega

/-- A row whose operators all bind alike is as high as there are operands: nothing is behind the root,
and everything else before it. -/
theorem longestPath_reference_of_tier_eq {tier : Nat} (h : ∀ link ∈ links, link.op.tier = tier) :
    (first.reference links).longestPath = links.length + 1 := by
  induction first, links using splitInduction with
  | single first => rw [reference, first.longestPath_tree, List.length_nil]
  | split first links split ihBefore _ =>
    have hbefore := ihBefore fun link hlink => h link (split.mem_of_mem_before hlink)
    have hafter : split.after = [] := by
      rw [List.eq_nil_iff_forall_not_mem]
      intro link hlink
      have hlt := split.after_lt link hlink
      rw [h _ split.loosest_mem, h link (split.mem_of_mem_after hlink)] at hlt
      exact Nat.lt_irrefl _ hlt
    rw [first.reference_eq split, Expr.longestPath, hbefore, hafter, reference, longestPath_tree,
      split.length_eq, hafter, List.length_nil]
    omega

/-- A token of a row that is no operand is one of its operators. -/
theorem exists_link_of_mem_row {token : Token} (htoken : token ∈ first.row links)
    (hleaf : token.leaf? = none) : ∃ link ∈ links, link.token = token := by
  have hother (operand : Operand) : token ≠ operand.token := by
    rintro rfl
    rw [operand.isLeaf] at hleaf
    cases hleaf
  simpa [row, hother, eq_comm] using htoken

/-- No token of a row is the end of input. -/
theorem kind_ne_endOfInput (first : Operand) (links : List Link) :
    ∀ token ∈ first.row links, token.kind ≠ .endOfInput := by
  intro token htoken hkind
  obtain ⟨link, -, rfl⟩ := exists_link_of_mem_row htoken (by simp [Token.leaf?, hkind])
  have hop := link.isOperator
  rw [hkind, ← BinaryOp.ofKind?_eq_some_iff] at hop
  cases hop

/-- A token of a row at which limits are exceeded is one of its operators. -/
theorem exists_link_of_exceededAt {limits : Limits} {offset : Nat}
    (h : limits.ExceededAt (first.row links) offset) :
    ∃ link ∈ links, link.token.offset = offset := by
  have hrow {token : Token} (htoken : token ∈ first.row links) (hleaf : token.leaf? = none) :
      ∃ link ∈ links, link.token.offset = token.offset := by
    obtain ⟨link, hlink, rfl⟩ := exists_link_of_mem_row htoken hleaf
    exact ⟨link, hlink, rfl⟩
  cases h with
  | @opening before after token place htokens _ hopens _ =>
    exact hrow (by simp [htokens]) (Token.leaf?_eq_none_of_opens hopens)
  | operator before operand operand' after htokens hop =>
    exact hrow (by simp [htokens]) (Token.leaf?_eq_none_of_operator hop)

end Row

end Operand

namespace TokenStream

/-- Tokens that derive a tree are read as this tree under any limits, unless they exceed them. -/
theorem parse_of_derives {limits : Limits} {stream : TokenStream} {e : Expr}
    (h : Derives none .conditional 0 stream.tokens e) :
    (stream.parse limits).1 = .ok e ∨
      ∃ offset, (stream.parse limits).1 = .error (.tooDeep offset) ∧
        limits.ExceededAt stream.tokens offset := by
  have hread : Parse.Reads ⟨.unlimited, stream.stop⟩ (.form .conditional) 0 stream.tokens (.ok e) [] :=
    Parse.reads_conditional_iff.mpr ⟨h, nofun⟩
  have hlimits : limits ≤ Limits.unlimited := ⟨nofun, nofun⟩
  have hsame {result : Except ParseError Expr} {rest : List Token}
      (hreads : Parse.Reads ⟨limits, stream.stop⟩ (.form .conditional) 0 stream.tokens result rest)
      (hresult : ∀ offset, result ≠ .error (.tooDeep offset)) : (result, rest) = (.ok e, []) :=
    (hreads.mono hlimits hresult).answer_eq.symm.trans hread.answer_eq
  cases hparse : (stream.parse limits).1 with
  | ok e' =>
    cases hsame (parse_eq_ok_iff.mp hparse) nofun
    exact .inl rfl
  | error error =>
    rcases parse_error_cases hparse with hreads | ⟨e', token, rest, -, -, hreads⟩
    · by_cases hdeep : ∃ offset, error = .tooDeep offset
      · obtain ⟨offset, rfl⟩ := hdeep
        exact .inr ⟨offset, rfl, hreads.exceededAt offset rfl [] [] Parse.ready_conditional rfl
          fun _ _ => Nat.zero_le _⟩
      · cases hsame hreads fun offset herror => hdeep ⟨offset, Except.error.inj herror⟩
    · cases hsame hreads nofun

/-- What is read are the tokens before an end of input. -/
theorem tokens_ofTokens_append {tokens ending : List Token}
    (htokens : ∀ token ∈ tokens, token.kind ≠ .endOfInput)
    (hending : ∀ token ∈ ending.head?, token.kind = .endOfInput) :
    (ofTokens (tokens ++ ending)).tokens = tokens := by
  rw [ofTokens, List.takeWhile_append_of_pos (by simpa using htokens)]
  cases ending with
  | nil => simp
  | cons token others => simp [hending token rfl]

end TokenStream

/-- The parser makes the tree of a row of operands and binary operators, with or without an end of input
behind it, unless the tree is higher than 256. Then it is refused at one of the operators. -/
theorem parse_eq_reference (first : Operand) (links : List Link) {ending : List Token}
    (hending : ∀ token ∈ ending.head?, token.kind = .endOfInput) :
    let answer := ((TokenStream.ofTokens (first.row links ++ ending)).parse .standard).1
    let tree := first.reference links
    (tree.height ≤ 256 → answer = .ok tree) ∧
      (256 < tree.height → ∃ link ∈ links, answer = .error (.tooDeep link.token.offset)) := by
  intro answer tree
  have htokens := TokenStream.tokens_ofTokens_append (first.kind_ne_endOfInput links) hending
  have hderives (nesting : Option Nat) :
      Derives nesting .conditional 0 (TokenStream.ofTokens (first.row links ++ ending)).tokens tree := by
    rw [htokens]
    exact .plain (Operand.derives_reference nesting 0 fun _ _ => Nat.zero_le _)
  have hadmits : Limits.standard.Admits tree ↔ tree.height ≤ 256 := by
    simp [Limits.Admits, Limits.standard, tree, Operand.binariesWithin_reference,
      Expr.height_eq_longestPath]
  constructor
  · intro hheight
    exact TokenStream.parse_eq_ok_iff.mpr
      (Parse.reads_conditional_iff.mpr ⟨hderives _, hadmits.mpr hheight⟩)
  · intro hheight
    rcases TokenStream.parse_of_derives (hderives none) with hok | ⟨offset, herror, hexceeded⟩
    · have hread := Parse.reads_conditional_iff.mp (TokenStream.parse_eq_ok_iff.mp hok)
      exact absurd (hadmits.mp hread.2) (Nat.not_le.mpr hheight)
    · rw [htokens] at hexceeded
      obtain ⟨link, hlink, rfl⟩ := Operand.exists_link_of_exceededAt hexceeded
      exact ⟨link, hlink, herror⟩

/-- Differences are read from the left and products first, and a row of 256 differences is refused. -/
theorem parse_eq_reference_differences :
    let name (text : String) (offset : Nat) : Operand :=
      ⟨⟨.identifier, text, offset⟩, .identifier text offset, rfl⟩
    let minus (offset : Nat) (operand : Operand) : Link :=
      ⟨⟨.minus, "-", offset⟩, .arithmetic .subtract, rfl, operand⟩
    let mixed : List Link :=
      [minus 2 (name "b" 4), ⟨⟨.star, "*", 6⟩, .arithmetic .multiply, rfl, name "c" 8⟩,
        minus 10 (name "d" 12)]
    let long : List Link := (List.range 256).map fun i => minus (2 * i + 1) (name "a" (2 * i + 2))
    ((TokenStream.ofTokens ((name "a" 0).row mixed ++ [⟨.endOfInput, "", 13⟩])).parse .standard).1 =
        .ok (.binary (.arithmetic .subtract)
          (.binary (.arithmetic .subtract) (.identifier "a" 0)
            (.binary (.arithmetic .multiply) (.identifier "b" 4) (.identifier "c" 8) 6) 2)
          (.identifier "d" 12) 10) ∧
      ∃ link ∈ long, ((TokenStream.ofTokens ((name "a" 0).row long ++ [])).parse .standard).1 =
        .error (.tooDeep link.token.offset) := by
  intro name minus mixed long
  constructor
  · have htree : (name "a" 0).reference mixed = .binary (.arithmetic .subtract)
          (.binary (.arithmetic .subtract) (.identifier "a" 0)
            (.binary (.arithmetic .multiply) (.identifier "b" 4) (.identifier "c" 8) 6) 2)
          (.identifier "d" 12) 10 := by
      cbv
    rw [← htree]
    exact (parse_eq_reference (name "a" 0) mixed (by simp)).1
      (by rw [htree, Expr.height_eq_longestPath]; decide)
  · refine (parse_eq_reference (name "a" 0) long (by simp)).2 ?_
    have htiers : ∀ link ∈ long, link.op.tier = 4 := by
      simp only [long, List.forall_mem_map]
      exact fun _ _ => rfl
    rw [Expr.height_eq_longestPath, Operand.longestPath_reference_of_tier_eq htiers]
    simp [long]

end ScalarExpr
