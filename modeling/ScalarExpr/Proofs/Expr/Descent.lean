import ScalarExpr.Proofs.Expr.Height

/-!
# Ways down a tree

A way down starts at the root and goes from a node to one of its children. Prefix operators and
conditionals are counted on ways that meet no binary operator, up to the first one that they reach or
up to wherever they end.

Bounds on these counts, together with a bound on the height of all trees under a binary operator,
bound the height of the whole tree.
-/

namespace ScalarExpr.Expr

/-- Whether a node is a binary operator. -/
def isBinary : Expr → Bool
  | binary .. => true
  | _ => false

/-- Whether a node is a prefix operator or a conditional. -/
def isWrapper : Expr → Bool
  | unary .. | conditional .. => true
  | _ => false

/-- A way down a tree: the nodes that it passes, the root first, and the node at which it ends. -/
inductive Descends : Expr → List Expr → Expr → Prop
  | stop {e : Expr} : Descends e [] e
  | down {e child node : Expr} {passed : List Expr} :
    child ∈ e.children → Descends child passed node → Descends e (e :: passed) node

/-- With so many prefix operators and conditionals above the tree, there are at most `toBinary` on
every way to a first binary operator, and at most `toEnd` on every way without one. -/
def PassesWithin (toBinary toEnd above : Nat) (e : Expr) : Prop :=
  ∀ passed node, Descends e passed node → (∀ other ∈ passed, other.isBinary = false) →
    (node.isBinary = true → above + passed.countP isWrapper ≤ toBinary) ∧
      (node.isBinary = false → above + (passed ++ [node]).countP isWrapper ≤ toEnd)

section Passes

variable {toBinary toEnd above : Nat} {e : Expr}

/-- A leaf is the end of the only way down from it. -/
theorem passesWithin_of_children_eq_nil (h : e.children = []) (habove : above ≤ toEnd) :
    e.PassesWithin toBinary toEnd above := by
  intro passed node hway _
  cases hway with
  | stop => cases e <;> simp_all [children, isBinary, isWrapper]
  | down hchild _ => simp [h] at hchild

/-- A binary operator is the first on every way down from it. -/
theorem passesWithin_binary {op : BinaryOp} {left right : Expr} {pos : Nat} :
    (binary op left right pos).PassesWithin toBinary toEnd above ↔ above ≤ toBinary := by
  refine ⟨fun h => (h [] _ .stop (by simp)).1 rfl, fun habove passed node hway hpassed => ?_⟩
  cases hway with
  | stop => exact ⟨fun _ => habove, nofun⟩
  | down => exact absurd (hpassed _ List.mem_cons_self) (by simp [isBinary])

/-- A prefix operator or a conditional adds itself to the ways down from its children. -/
theorem passesWithin_iff_children (hroot : e.isWrapper = true) :
    e.PassesWithin toBinary toEnd above ↔
      above + 1 ≤ toEnd ∧ ∀ child ∈ e.children, child.PassesWithin toBinary toEnd (above + 1) := by
  have hbinary : e.isBinary = false := by cases e <;> first | rfl | cases hroot
  constructor
  · intro h
    refine ⟨by simpa [hroot] using (h [] e .stop (by simp)).2 hbinary, ?_⟩
    intro child hchild passed node hway hpassed
    have hbelow := h (e :: passed) node (.down hchild hway)
      (List.forall_mem_cons.mpr ⟨hbinary, hpassed⟩)
    simpa [hroot, Nat.add_assoc, Nat.add_comm 1] using hbelow
  · rintro ⟨habove, hchildren⟩ passed node hway hpassed
    cases hway with
    | stop => simp [hbinary, hroot, habove]
    | down hchild hway =>
      have hbelow := hchildren _ hchild _ _ hway (List.forall_mem_cons.mp hpassed).2
      simpa [hroot, Nat.add_assoc, Nat.add_comm 1] using hbelow

/-- Greater bounds hold too, and so does less above the tree. -/
theorem PassesWithin.mono {toBinary' toEnd' above' : Nat}
    (h : e.PassesWithin toBinary toEnd above) (hbinary : toBinary + above' ≤ toBinary' + above)
    (hend : toEnd + above' ≤ toEnd' + above) : e.PassesWithin toBinary' toEnd' above' := by
  intro passed node hway hpassed
  obtain ⟨hto, hwithout⟩ := h passed node hway hpassed
  refine ⟨fun hnode => ?_, fun hnode => ?_⟩
  · have := hto hnode
    omega
  · have := hwithout hnode
    omega

/-- A tree is as high as what is passed to a first binary operator and the bound on that, or as what
is passed without one and a leaf. -/
theorem PassesWithin.longestPath_le {bound : Nat} (h : e.PassesWithin toBinary toEnd above)
    (hwithin : e.BinariesWithin bound) :
    above + e.longestPath ≤ max (toBinary + bound) (toEnd + 1) := by
  induction e generalizing above with
  | number | text | identifier =>
    have hleaf := (h [] _ .stop (by simp)).2 rfl
    simp [isWrapper] at hleaf
    rw [longestPath]
    omega
  | binary op left right pos =>
    have habove := passesWithin_binary.mp h
    have hheight := (binariesWithin_binary.mp hwithin).1
    rw [longestPath]
    omega
  | unary op operand pos ih =>
    obtain ⟨-, hchildren⟩ := (passesWithin_iff_children rfl).mp h
    have hoperand := ih (hchildren operand (by simp [children])) (binariesWithin_unary.mp hwithin)
    rw [longestPath]
    omega
  | conditional condition whenTrue whenFalse ih ihTrue ihFalse =>
    obtain ⟨-, hchildren⟩ := (passesWithin_iff_children rfl).mp h
    obtain ⟨hcondition, htrue, hfalse⟩ := binariesWithin_conditional.mp hwithin
    have hfirst := ih (hchildren condition (by simp [children])) hcondition
    have hsecond := ihTrue (hchildren whenTrue (by simp [children])) htrue
    have hthird := ihFalse (hchildren whenFalse (by simp [children])) hfalse
    rw [longestPath]
    omega

end Passes

end ScalarExpr.Expr
