import ScalarExpr.Proofs.Expr.Height

/-!
# The search for the height of a tree

The height is searched for with a list of subtrees that are still to be visited, each with its depth.
Every round takes one of them out and puts its children in, so that the list gets longer before it gets
shorter. What gets smaller from round to round is the number of nodes in the list: the search ends after
as many rounds as the tree has nodes, whichever entry is taken and wherever the children are put.

What the rounds keep is the result that the list leads to. The entries bound it one by one, and so their
order does not matter.
-/

namespace ScalarExpr.Expr

/-- Where a search for the height of a tree may stand after this many rounds: the greatest depth that
has been met, and the subtrees that are still to be visited with their depths. -/
inductive Searched (e : Expr) : Nat → Nat → List (Expr × Nat) → Prop
  | start : Searched e 0 0 [(e, 1)]
  | visit {rounds height depth : Nat} {node : Expr} {pending others next : List (Expr × Nat)} :
    Searched e rounds height pending → pending.Perm ((node, depth) :: others) →
    next.Perm (node.children.map (·, depth + 1) ++ others) →
    Searched e (rounds + 1) (max height depth) next

/-- Trees that have no nodes together are none. -/
theorem total_eq_zero_iff {trees : List Expr} : total trees = 0 ↔ trees = [] := by
  cases trees with
  | nil => simp [total]
  | cons e trees => simp [total, size_eq_children]

/-- The numbers of nodes add up in any order. -/
theorem total_perm {first second : List Expr} (h : first.Perm second) :
    total first = total second := by
  induction h with
  | nil => rfl
  | cons e _ ih => simp only [total, ih]
  | swap e e' rest => simp only [total, Nat.add_left_comm]
  | trans _ _ ih ih' => exact ih.trans ih'

/-- A list of pending subtrees leads to the same height in any order. -/
theorem deepest_perm {pending pending' : List (Expr × Nat)} (h : pending.Perm pending')
    (height : Nat) : deepest height pending = deepest height pending' := by
  have hbounds (bound : Nat) : deepest height pending ≤ bound ↔ deepest height pending' ≤ bound := by
    simp only [deepest_le_iff, h.mem_iff]
  exact Nat.le_antisymm ((hbounds _).mpr (Nat.le_refl _)) ((hbounds _).mp (Nat.le_refl _))

section Rounds

variable {e : Expr} {rounds height : Nat} {pending : List (Expr × Nat)}

/-- Every round visits one node for good. -/
theorem Searched.rounds_add_total (h : e.Searched rounds height pending) :
    rounds + total (pending.map Prod.fst) = e.size := by
  induction h with
  | start => simp [total]
  | @visit rounds height depth node pending others next _ hpending hnext ih =>
    have hbefore := total_perm (hpending.map Prod.fst)
    have hafter := total_perm (hnext.map Prod.fst)
    have hsize := size_eq_children node
    simp only [List.map_cons, total] at hbefore
    simp only [List.map_append, List.map_map, Function.comp_def, List.map_id', total_append] at hafter
    omega

/-- What is pending leads to the height of the tree. -/
theorem Searched.deepest_eq (h : e.Searched rounds height pending) :
    deepest height pending = e.height := by
  induction h with
  | start => rfl
  | visit _ hpending hnext ih =>
    rw [deepest_perm hnext, ← ih, deepest_perm hpending, deepest]

/-- From everywhere in a search its end is reached, with the height that the list leads to. -/
theorem Searched.ends (h : e.Searched rounds height pending) :
    e.Searched e.size (deepest height pending) [] := by
  induction height, pending using deepest.induct generalizing rounds with
  | case1 height =>
    have hrounds := h.rounds_add_total
    simp only [List.map_nil, total, Nat.add_zero] at hrounds
    rwa [deepest, ← hrounds]
  | case2 height node depth pending ih =>
    rw [deepest]
    exact ih (h.visit (.refl _) (.refl _))

/-- What holds wherever a search for the height of a tree stands. -/
structure SearchEnds (e : Expr) (rounds height : Nat) (pending : List (Expr × Nat)) : Prop where
  /-- The search is at its end exactly after as many rounds as there are nodes. -/
  ended_iff : pending = [] ↔ rounds = e.size
  /-- It never takes more rounds. -/
  rounds_le : rounds ≤ e.size
  /-- At the end the height has been found. -/
  found : pending = [] → height = e.longestPath
  /-- Before the end, the last of the pending subtrees is one that may be visited, and its children may
  be put last. -/
  goesOn : ∀ others node depth, pending = others ++ [(node, depth)] →
    e.Searched (rounds + 1) (max height depth) (others ++ node.children.map (·, depth + 1))

/-- Every search for the height of a tree ends, and finds it. -/
theorem Searched.searchEnds (h : e.Searched rounds height pending) :
    e.SearchEnds rounds height pending where
  ended_iff := by
    have hrounds := h.rounds_add_total
    have hnil : total (pending.map Prod.fst) = 0 ↔ pending = [] :=
      total_eq_zero_iff.trans List.map_eq_nil_iff
    rw [← hnil]
    omega
  rounds_le := Nat.le.intro h.rounds_add_total
  found := by
    rintro rfl
    rw [← height_eq_longestPath, ← h.deepest_eq, deepest]
  goesOn := by
    rintro others node depth rfl
    exact h.visit (List.perm_append_singleton _ _) List.perm_append_comm

end Rounds

end ScalarExpr.Expr
