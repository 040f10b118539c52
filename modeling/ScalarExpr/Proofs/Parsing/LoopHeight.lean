import ScalarExpr.Proofs.Expr.Search
import ScalarExpr.Proofs.Parsing.Accepts
import Mathlib.Control.Monad.Basic

/-!
# The height that a level keeps

A level reads operators and right operands in a loop, and keeps the height of what it has read so far
instead of searching the tree for it again. Wherever the loop tests for another operator, this height is
that of the tree, and so every node is held against the limit by its true height.

The loop is followed from test to test. Its answer is that of going on from any of them.
-/

namespace ScalarExpr

namespace Parse

/-- The tests for another operator in the loop of a level: what has been read of the chain, the height
that is kept of it, and the tokens ahead. -/
inductive Tests (setting : Setting) (opened precedence : Nat) (tokens : List Token) :
    Expr → Nat → List Token → Prop
  | first {left rest} : precedence < BinaryOp.levels →
    answer setting opened tokens (.form (.level (precedence + 1))) = (.ok left, rest) →
    Tests setting opened precedence tokens left left.height rest
  | next {left height ahead op offset afterOperator right rest} :
    Tests setting opened precedence tokens left height ahead →
    operatorAt? precedence ahead = some (op, offset, afterOperator) →
    answer setting opened afterOperator (.form (.level (precedence + 1))) = (.ok right, rest) →
    setting.limits.allowsHeight (max height right.height + 1) = true →
    Tests setting opened precedence tokens (.binary op left right offset)
      (max height right.height + 1) rest

variable {setting : Setting} {opened precedence height : Nat} {tokens ahead : List Token} {left : Expr}

/-- The height that is kept is that of the tree. -/
theorem Tests.height_eq (h : Tests setting opened precedence tokens left height ahead) :
    height = left.longestPath := by
  induction h with
  | first => exact Expr.height_eq_longestPath _
  | next _ _ _ _ ih => rw [ih, Expr.height_eq_longestPath, Expr.longestPath]

/-- What follows a course is the answer of the function. -/
theorem answer_eq_of_reads {opened' : Nat} {tokens' : List Token} {task task' : Task}
    (h : ∀ result rest, Reads setting task' opened' tokens' result rest →
      Reads setting task opened tokens result rest) :
    answer setting opened tokens task = answer setting opened' tokens' task' :=
  (h _ _ (answer_eq_iff_reads.mp rfl)).answer_eq

/-- The answer of a level is that of going on from any of its tests. -/
theorem Tests.answer_eq (h : Tests setting opened precedence tokens left height ahead) :
    answer setting opened tokens (.form (.level precedence)) =
      answer setting opened ahead (.chain precedence left height) := by
  induction h with
  | first hlevels hleft =>
    exact answer_eq_of_reads fun _ _ => .chained hlevels (answer_eq_iff_reads.mp hleft)
  | next _ hoperator hright hallowed ih =>
    rw [ih]
    exact answer_eq_of_reads fun _ _ =>
      .chainGoesOn hoperator (answer_eq_iff_reads.mp hright) hallowed

/-- What holds at a test of the loop of a level, and what comes of it. -/
structure KeepsHeight (setting : Setting) (opened precedence : Nat) (tokens : List Token) (left : Expr)
    (height : Nat) (ahead : List Token) : Prop where
  /-- The height that is kept is that of the tree. -/
  height_eq : height = left.longestPath
  /-- Without another operator, the level is read. -/
  ends : operatorAt? precedence ahead = none →
    answer setting opened tokens (.form (.level precedence)) = (.ok left, ahead)
  /-- If what is behind another operator cannot be read, neither can the level. -/
  fails : ∀ op offset afterOperator error rest,
    operatorAt? precedence ahead = some (op, offset, afterOperator) →
    answer setting opened afterOperator (.form (.level (precedence + 1))) = (.error error, rest) →
    answer setting opened tokens (.form (.level precedence)) = (.error error, rest)
  /-- A node whose height the limits allow is what the loop goes on with. -/
  goesOn : ∀ op offset afterOperator right rest,
    operatorAt? precedence ahead = some (op, offset, afterOperator) →
    answer setting opened afterOperator (.form (.level (precedence + 1))) = (.ok right, rest) →
    setting.limits.allowsHeight (Expr.binary op left right offset).longestPath = true →
    Tests setting opened precedence tokens (.binary op left right offset)
      (Expr.binary op left right offset).longestPath rest
  /-- A node whose height they do not allow is refused at its operator. -/
  refuses : ∀ op offset afterOperator right rest,
    operatorAt? precedence ahead = some (op, offset, afterOperator) →
    answer setting opened afterOperator (.form (.level (precedence + 1))) = (.ok right, rest) →
    setting.limits.allowsHeight (Expr.binary op left right offset).longestPath = false →
    answer setting opened tokens (.form (.level precedence)) = (.error (.tooDeep offset), rest)

/-- The height that would be kept of a node is its true height. -/
theorem Tests.longestPath_binary (h : Tests setting opened precedence tokens left height ahead)
    (op : BinaryOp) (right : Expr) (offset : Nat) :
    (Expr.binary op left right offset).longestPath = max height right.height + 1 := by
  rw [Expr.longestPath, h.height_eq, Expr.height_eq_longestPath]

/-- At every test of its loop, a level knows the height of what it has read. -/
theorem Tests.keepsHeight (h : Tests setting opened precedence tokens left height ahead) :
    KeepsHeight setting opened precedence tokens left height ahead where
  height_eq := h.height_eq
  ends := by
    intro hoperator
    rw [h.answer_eq]
    exact (Reads.chainEnds hoperator).answer_eq
  fails := by
    intro op offset afterOperator error rest hoperator hright
    rw [h.answer_eq]
    exact (Reads.rightFails hoperator (answer_eq_iff_reads.mp hright)).answer_eq
  goesOn := by
    intro op offset afterOperator right rest hoperator hright hallowed
    rw [h.longestPath_binary op right offset] at hallowed ⊢
    exact h.next hoperator hright hallowed
  refuses := by
    intro op offset afterOperator right rest hoperator hright hrefused
    rw [h.longestPath_binary op right offset] at hrefused
    rw [h.answer_eq]
    exact (Reads.tooHigh hoperator (answer_eq_iff_reads.mp hright) hrefused).answer_eq

end Parse

/-- Every search for the height of a tree ends after as many rounds as there are nodes and finds the
longest path, and at every test in the loop of a level the height that is kept is that of the tree. -/
theorem heights_kept :
    (∀ e : Expr, e.height = e.longestPath ∧ e.Searched e.size e.height [] ∧
      ∀ rounds height pending, e.Searched rounds height pending →
        e.SearchEnds rounds height pending) ∧
    ∀ setting opened precedence tokens left height ahead,
      Parse.Tests setting opened precedence tokens left height ahead →
        Parse.KeepsHeight setting opened precedence tokens left height ahead :=
  ⟨fun e => ⟨e.height_eq_longestPath, Expr.Searched.start.ends, fun _ _ _ => Expr.Searched.searchEnds⟩,
    fun _ _ _ _ _ _ _ => Parse.Tests.keepsHeight⟩

/-- A sum that is as high as the limit allows is found to be so, and no term is added to it. -/
theorem heights_kept_of_sum :
    let setting : Setting := ⟨⟨none, some 2⟩, 5⟩
    let tokens : List Token := [⟨.number, "1", 0⟩, ⟨.plus, "+", 1⟩, ⟨.number, "2", 2⟩, ⟨.plus, "+", 3⟩,
      ⟨.number, "3", 4⟩]
    let sum : Expr := .binary (.arithmetic .add) (.number (.integer 1) 0) (.number (.integer 2) 2) 1
    sum.Searched 3 2 [] ∧ sum.longestPath = 2 ∧
      Parse.Tests setting 0 4 tokens sum 2 (tokens.drop 3) ∧
      Parse.answer setting 0 tokens (.form (.level 4)) = (.error (.tooDeep 3), []) := by
  intro setting tokens sum
  obtain ⟨hheight, hsearched, hends⟩ := heights_kept.1 sum
  rw [hheight] at hsearched
  have hlongest := (hends 3 2 [] hsearched).found rfl
  have hleaf (value : Number) (pos : Nat) : (Expr.number value pos).height = 1 :=
    Expr.height_eq_longestPath _
  have htests : Parse.Tests setting 0 4 tokens sum 2 (tokens.drop 3) := by
    have hfirst : Parse.Tests setting 0 4 tokens (.number (.integer 1) 0) _ (tokens.drop 1) :=
      .first (by decide) (by decide +kernel)
    have hnext : Parse.Tests setting 0 4 tokens sum _ (tokens.drop 3) :=
      hfirst.next rfl (by decide +kernel) (by rw [hleaf, hleaf]; rfl)
    rwa [hleaf, hleaf] at hnext
  refine ⟨hsearched, hlongest.symm, htests, ?_⟩
  exact (heights_kept.2 _ _ _ _ _ _ _ htests).refuses (.arithmetic .add) 3 (tokens.drop 4)
    (.number (.integer 3) 4) [] rfl (by decide +kernel) rfl

end ScalarExpr
