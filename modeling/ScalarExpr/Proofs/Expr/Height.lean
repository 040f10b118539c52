import ScalarExpr.Expr

/-!
# The height of a tree

The list of pending subtrees and the recursion on the tree find the same height. The list is
described by what bounds its result: a height is at least the depth of every entry and at least
the depth to which the entry's subtree reaches.

Subtrees are listed with the tree itself, so that a bound on all operator nodes can be stated and
taken apart.
-/

namespace ScalarExpr.Expr

/-- A tree reaches a depth exactly if its root is there and its children reach what is left. -/
theorem longestPath_le_iff_children (e : Expr) (depth bound : Nat) :
    depth + e.longestPath ≤ bound + 1 ↔
      depth ≤ bound ∧ ∀ child ∈ e.children, depth + 1 + child.longestPath ≤ bound + 1 := by
  cases e <;> simp [longestPath, children] <;> omega

/-- The result of the list is bounded exactly by what bounds the height so far and every entry. -/
theorem deepest_le_iff (height bound : Nat) (pending : List (Expr × Nat)) :
    deepest height pending ≤ bound ↔
      height ≤ bound ∧ ∀ entry ∈ pending, entry.2 + entry.1.longestPath ≤ bound + 1 := by
  induction height, pending using deepest.induct with
  | case1 height => simp [deepest]
  | case2 height e depth pending ih =>
    rw [deepest, ih]
    simp only [List.mem_append, List.mem_map, List.mem_cons, forall_eq_or_imp,
      longestPath_le_iff_children e depth bound, Nat.max_le]
    constructor
    · rintro ⟨⟨hheight, hdepth⟩, hentries⟩
      exact ⟨hheight, ⟨hdepth, fun child hchild => hentries _ (.inl ⟨child, hchild, rfl⟩)⟩,
        fun entry hentry => hentries entry (.inr hentry)⟩
    · rintro ⟨hheight, ⟨hdepth, hchildren⟩, hpending⟩
      refine ⟨⟨hheight, hdepth⟩, ?_⟩
      rintro entry (⟨child, hchild, rfl⟩ | hentry)
      · exact hchildren child hchild
      · exact hpending entry hentry

/-- The height that the list finds is the length of the longest path. -/
theorem height_eq_longestPath (e : Expr) : e.height = e.longestPath := by
  have hbounds (bound : Nat) : e.height ≤ bound ↔ 1 + e.longestPath ≤ bound + 1 := by
    simp only [height, deepest_le_iff, List.mem_singleton, forall_eq, Nat.zero_le, true_and]
  have hlow := (hbounds e.height).mp (Nat.le_refl _)
  have hhigh := (hbounds e.longestPath).mpr (by omega)
  omega

/-- All subtrees, with the tree itself first. -/
def subtrees : Expr → List Expr
  | number value pos => [number value pos]
  | text value pos => [text value pos]
  | identifier name pos => [identifier name pos]
  | unary op operand pos => unary op operand pos :: operand.subtrees
  | binary op left right pos => binary op left right pos :: (left.subtrees ++ right.subtrees)
  | conditional condition whenTrue whenFalse =>
    conditional condition whenTrue whenFalse ::
      (condition.subtrees ++ (whenTrue.subtrees ++ whenFalse.subtrees))

/-- What a tree passes on to the trees right below its root holds of all its subtrees. -/
theorem forall_mem_subtrees {P : Expr → Prop}
    (hchildren : ∀ e, P e → ∀ child ∈ e.children, P child) {e : Expr} (he : P e) :
    ∀ node ∈ e.subtrees, P node := by
  induction e with
  | number value pos | text value pos | identifier name pos => simpa [subtrees] using he
  | unary op operand pos ih =>
    have hoperand := hchildren _ he operand (by simp [children])
    simp only [subtrees, List.forall_mem_cons]
    exact ⟨he, ih hoperand⟩
  | binary op left right pos ihleft ihright =>
    have hleft := hchildren _ he left (by simp [children])
    have hright := hchildren _ he right (by simp [children])
    simp only [subtrees, List.forall_mem_cons, List.forall_mem_append]
    exact ⟨he, ihleft hleft, ihright hright⟩
  | conditional condition whenTrue whenFalse ihcondition ihtrue ihfalse =>
    have hcondition := hchildren _ he condition (by simp [children])
    have htrue := hchildren _ he whenTrue (by simp [children])
    have hfalse := hchildren _ he whenFalse (by simp [children])
    simp only [subtrees, List.forall_mem_cons, List.forall_mem_append]
    exact ⟨he, ihcondition hcondition, ihtrue htrue, ihfalse hfalse⟩

/-- No subtree whose root is a binary operator is higher than the bound. -/
def BinariesWithin (bound : Nat) (e : Expr) : Prop :=
  ∀ op left right pos, binary op left right pos ∈ e.subtrees →
    (binary op left right pos).longestPath ≤ bound

/-- A leaf has no operators. -/
theorem binariesWithin_of_children_eq_nil {bound : Nat} {e : Expr} (h : e.children = []) :
    e.BinariesWithin bound := by
  cases e <;> simp_all [children, BinariesWithin, subtrees]

/-- A prefix operator adds no binary one. -/
theorem binariesWithin_unary {bound : Nat} {op : UnaryOp} {operand : Expr} {pos : Nat} :
    (unary op operand pos).BinariesWithin bound ↔ operand.BinariesWithin bound := by
  simp [BinariesWithin, subtrees]

/-- A binary operator adds its own height to the bounds of its operands. -/
theorem binariesWithin_binary {bound : Nat} {op : BinaryOp} {left right : Expr} {pos : Nat} :
    (binary op left right pos).BinariesWithin bound ↔
      max left.longestPath right.longestPath + 1 ≤ bound ∧ left.BinariesWithin bound ∧
        right.BinariesWithin bound := by
  constructor
  · intro h
    refine ⟨h op left right pos (by simp [subtrees]), ?_, ?_⟩
    · intro op' left' right' pos' hmem
      exact h op' left' right' pos' (by simp [subtrees, hmem])
    · intro op' left' right' pos' hmem
      exact h op' left' right' pos' (by simp [subtrees, hmem])
  · rintro ⟨hroot, hleft, hright⟩ op' left' right' pos' hmem
    simp only [subtrees, List.mem_cons, List.mem_append] at hmem
    rcases hmem with hself | hmem | hmem
    · cases hself
      exact hroot
    · exact hleft op' left' right' pos' hmem
    · exact hright op' left' right' pos' hmem

/-- A conditional adds no binary operator. -/
theorem binariesWithin_conditional {bound : Nat} {condition whenTrue whenFalse : Expr} :
    (conditional condition whenTrue whenFalse).BinariesWithin bound ↔
      condition.BinariesWithin bound ∧ whenTrue.BinariesWithin bound ∧
        whenFalse.BinariesWithin bound := by
  constructor
  · intro h
    refine ⟨?_, ?_, ?_⟩ <;> intro op left right pos hmem <;>
      exact h op left right pos (by simp [subtrees, hmem])
  · rintro ⟨hcondition, htrue, hfalse⟩ op left right pos hmem
    simp only [subtrees, List.mem_cons, List.mem_append, reduceCtorEq, false_or] at hmem
    rcases hmem with hmem | hmem | hmem
    · exact hcondition op left right pos hmem
    · exact htrue op left right pos hmem
    · exact hfalse op left right pos hmem

end ScalarExpr.Expr
