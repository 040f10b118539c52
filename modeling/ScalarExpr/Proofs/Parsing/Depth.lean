import ScalarExpr.Proofs.Expr.Descent
import ScalarExpr.Proofs.Parsing.Accepts

/-!
# How high trees get

The limit on height is asked only where a binary operator is made. Prefix operators and conditionals
are kept few by the limit on nesting, since each of them opens a construct around what it is read
before. Only the condition of a conditional is read without opening one; but what is directly there
is no conditional, and so only one node more comes in this way.

Together the two limits bound the height of every tree that is read, on every reading of a stream.
-/

namespace ScalarExpr

open ScalarExpr.Expr

/-- How many prefix operators and conditionals a tree of a form may have on its ways down, when at
most `bound` constructs may be open and `opened` of them are open around it. What is of a level may be
a binary operator itself, whatever is open. -/
def Form.Passes (bound opened : Nat) (e : Expr) : Form → Prop
  | .conditional => e.PassesWithin bound (bound + 1) opened
  | .level _ => e.PassesWithin (max bound (opened + 1)) (bound + 1) (opened + 1)
  | .unary | .primary => e.PassesWithin bound (bound + 1) (opened + 1)

/-- What derives a tree inside no more open constructs than there may be keeps its ways down short. -/
theorem Derives.passes {bound opened : Nat} {form : Form} {tokens : List Token} {e : Expr}
    (h : Derives (some bound) form opened tokens e) (hopened : opened ≤ bound) :
    form.Passes bound opened e := by
  induction h with
  | number | text | identifier => exact passesWithin_of_children_eq_nil rfl (by omega)
  | parentheses _ _ hallowed _ ih => exact ih (hallowed bound rfl)
  | primary _ ih => exact ih hopened
  | prefixOp _ hallowed _ ih =>
    have hlt := hallowed bound rfl
    refine (passesWithin_iff_children rfl).mpr ⟨by omega, fun child hchild => ?_⟩
    rw [List.mem_singleton.mp hchild]
    exact ih hlt
  | operand _ _ ih => exact (ih hopened).mono (by omega) (by omega)
  | tighter _ _ ih => exact ih hopened
  | chain => exact passesWithin_binary.mpr (by omega)
  | plain _ ih => exact (ih hopened).mono (by omega) (by omega)
  | choice _ _ hallowed _ _ _ ih ihTrue ihFalse =>
    have hlt := hallowed bound rfl
    refine (passesWithin_iff_children rfl).mpr ⟨by omega, fun child hchild => ?_⟩
    simp only [children, List.mem_cons, List.not_mem_nil, or_false] at hchild
    rcases hchild with rfl | rfl | rfl
    · exact (ih hopened).mono (by omega) (by omega)
    · exact ihTrue hlt
    · exact ihFalse hlt

namespace TokenStream

/-- An answer among several is that of a reading on its own. -/
theorem exists_parse_of_mem_answers {limits : Limits} {calls : Nat} {stream : TokenStream}
    {answer : Except ParseError Expr} (h : answer ∈ stream.answers limits calls) :
    ∃ stream' : TokenStream, (stream'.parse limits).1 = answer := by
  induction calls generalizing stream with
  | zero => exact absurd h List.not_mem_nil
  | succ calls ih =>
    rcases List.mem_cons.mp h with hfirst | hlater
    · exact ⟨stream, hfirst.symm⟩
    · exact ih hlater

/-- A tree that is read derives from some tokens, within the limits. -/
theorem exists_derives_of_mem_answers {limits : Limits} {calls : Nat} {stream : TokenStream}
    {e : Expr} (h : .ok e ∈ stream.answers limits calls) :
    ∃ tokens, Derives limits.nesting .conditional 0 tokens e ∧ limits.Admits e := by
  obtain ⟨stream', hparse⟩ := exists_parse_of_mem_answers h
  rw [parse_eq_ok_iff, Parse.reads_conditional_iff] at hparse
  exact ⟨stream'.tokens, hparse⟩

end TokenStream

/-- Whatever tokens are given and however often they are read, a tree that is read has no binary
operator higher than 256, at most 64 prefix operators and conditionals above a first binary operator
on every way down, at most 65 of them on a way without one, and is no higher than 320. -/
theorem height_le_of_mem_answers {tokens : List Token} {calls : Nat} {e : Expr}
    (h : .ok e ∈ (TokenStream.ofTokens tokens).answers .standard calls) :
    (∀ node ∈ e.subtrees, node.isBinary = true → node.height ≤ 256) ∧
      (∀ passed node, e.Descends passed node → (∀ other ∈ passed, other.isBinary = false) →
        node.isBinary = true → passed.countP isWrapper ≤ 64) ∧
      (∀ passed node, e.Descends passed node →
        (∀ other ∈ passed ++ [node], other.isBinary = false) →
        (passed ++ [node]).countP isWrapper ≤ 65) ∧
      e.height ≤ 320 := by
  obtain ⟨taken, hderives, hadmits⟩ := TokenStream.exists_derives_of_mem_answers h
  have hpasses : e.PassesWithin 64 65 0 := hderives.passes (Nat.zero_le 64)
  have hwithin : e.BinariesWithin 256 := hadmits 256 rfl
  refine ⟨?_, ?_, ?_, ?_⟩
  · intro node hnode hbinary
    rw [height_eq_longestPath]
    cases node with
    | binary op left right pos => exact hwithin op left right pos hnode
    | _ => cases hbinary
  · intro passed node hway hpassed hbinary
    simpa using (hpasses passed node hway hpassed).1 hbinary
  · intro passed node hway hwithout
    obtain ⟨hpassed, hnode⟩ := List.forall_mem_append.mp hwithout
    simpa using (hpasses passed node hway hpassed).2 (hnode node (List.mem_singleton_self node))
  · have hheight := hpasses.longestPath_le hwithin
    rw [height_eq_longestPath]
    omega

/-- A conditional with a prefix operator in its condition is read, and kept low. -/
theorem height_le_of_conditional :
    let tokens : List Token := [⟨.not, "!", 0⟩, ⟨.identifier, "a", 1⟩, ⟨.question, "?", 3⟩,
      ⟨.identifier, "b", 5⟩, ⟨.colon, ":", 7⟩, ⟨.identifier, "c", 9⟩]
    let e : Expr := .conditional (.unary .not (.identifier "a" 1) 0) (.identifier "b" 5)
      (.identifier "c" 9)
    .ok e ∈ (TokenStream.ofTokens tokens).answers .standard 1 ∧ e.height ≤ 320 ∧
      ∀ passed node, e.Descends passed node → (∀ other ∈ passed ++ [node], other.isBinary = false) →
        (passed ++ [node]).countP isWrapper ≤ 65 := by
  intro tokens e
  have hanswers : (TokenStream.ofTokens tokens).answers .standard 1 = [.ok e] := by cbv
  have hread : .ok e ∈ (TokenStream.ofTokens tokens).answers .standard 1 := by
    rw [hanswers]
    exact List.mem_singleton_self _
  obtain ⟨-, -, hways, hheight⟩ := height_le_of_mem_answers hread
  exact ⟨hread, hheight, hways⟩

end ScalarExpr
