import ScalarExpr.Proofs.Parsing.Excess
import ScalarExpr.Proofs.Parsing.Relocation

/-!
# How deep constructs are opened

A bound on nesting excludes a tree exactly if one of its tokens opens a construct inside too many. The
part of the grammar in which a token stands is not asked for this: what is open around it is found by
reading the kinds before it from the left.

One more construct around all of the tokens leaves room for one less inside it.
-/

namespace ScalarExpr

namespace Place

/-- Every construct that a row of kinds opens behind a place is opened inside fewer than `bound`. -/
def OpensWithin (bound : Nat) : Place → List TokenKind → Prop
  | _, [] => True
  | place, kind :: kinds =>
    (place.Opens kind → place.around.length < bound) ∧
      ∀ next, place.step kind = some next → OpensWithin bound next kinds

variable {bound : Nat} {place next : Place} {kind : TokenKind} {kinds before after : List TokenKind}
  {around : List Construct}

/-- A row opens within a bound exactly if each token that opens something does. -/
theorem opensWithin_iff : place.OpensWithin bound kinds ↔
    ∀ before kind after next, kinds = before ++ kind :: after → place.run before = some next →
      next.Opens kind → next.around.length < bound := by
  induction kinds generalizing place with
  | nil => simp [OpensWithin]
  | cons first kinds ih =>
    constructor
    · rintro ⟨hfirst, hothers⟩ before kind after next hsplit hrun hopens
      cases before with
      | nil =>
        cases hsplit
        cases hrun
        exact hfirst hopens
      | cons _ before =>
        cases hsplit
        rw [run_cons] at hrun
        obtain ⟨second, hstep, hrun⟩ := Option.bind_eq_some_iff.mp hrun
        exact ih.mp (hothers second hstep) before kind after next rfl hrun hopens
    · intro hall
      refine ⟨hall [] first kinds place rfl rfl, fun second hstep => ih.mpr ?_⟩
      intro before kind after next hsplit hrun
      refine hall (first :: before) kind after next (by rw [hsplit, List.cons_append]) ?_
      rw [run_cons, hstep]
      exact hrun

/-- Where the next step is known, the first token and the others are looked at one by one. -/
theorem opensWithin_cons (hstep : place.step kind = some next) :
    place.OpensWithin bound (kind :: kinds) ↔
      (place.Opens kind → place.around.length < bound) ∧ next.OpensWithin bound kinds := by
  simp [OpensWithin, hstep]

/-- Where the place between them is known, two rows are looked at one by one. -/
theorem opensWithin_append (hrun : place.run before = some next) :
    place.OpensWithin bound (before ++ after) ↔
      place.OpensWithin bound before ∧ next.OpensWithin bound after := by
  induction before generalizing place with
  | nil =>
    cases hrun
    simp [OpensWithin]
  | cons kind before ih =>
    rw [run_cons] at hrun
    obtain ⟨second, hstep, hrun⟩ := Option.bind_eq_some_iff.mp hrun
    rw [List.cons_append, opensWithin_cons hstep, opensWithin_cons hstep, ih hrun, and_assoc]

/-- A literal or a name opens nothing. -/
theorem opensWithin_literal (h : kind = .number ∨ kind = .string ∨ kind = .identifier) :
    (due around).OpensWithin bound [kind] := by
  refine ⟨fun hopens => ?_, fun _ _ => trivial⟩
  rcases h with rfl | rfl | rfl <;> simp [Opens, ← UnaryOp.ofKind?_eq_some_iff, UnaryOp.ofKind?] at hopens

/-- A parenthesis is opened before what stands in it. -/
theorem opensWithin_parentheses (h : Phrase .conditional kinds) :
    (due around).OpensWithin bound (.leftParen :: (kinds ++ [.rightParen])) ↔
      around.length < bound ∧ (due (.parentheses :: around)).OpensWithin bound kinds := by
  obtain ⟨branches, hrun, -⟩ := h.place (.parentheses :: around)
  have hclose (inner : List Construct) : (read inner).OpensWithin bound [.rightParen] :=
    ⟨nofun, fun _ _ => trivial⟩
  have hopens : (due around).Opens .leftParen := .inl rfl
  simp [opensWithin_cons step_leftParen, opensWithin_append hrun, hclose, hopens, Place.around]

/-- A prefix operator is opened before its operand. -/
theorem opensWithin_prefixOp {op : UnaryOp} (hop : kind = op.kind) :
    (due around).OpensWithin bound (kind :: kinds) ↔
      around.length < bound ∧ (due (.prefixOp :: around)).OpensWithin bound kinds := by
  have hstep : (due around).step kind = some (due (.prefixOp :: around)) := step_due_of_prefix hop
  have hopens : (due around).Opens kind := .inr ⟨op, hop⟩
  simp [opensWithin_cons hstep, hopens, Place.around]

/-- The operands of a binary operator are opened inside the same constructs. -/
theorem opensWithin_chain {op : BinaryOp} {level : Nat} (hop : kind = op.kind)
    (h : Phrase (.level level) before) (haround : Construct.behindOperand around = around) :
    (due around).OpensWithin bound (before ++ kind :: after) ↔
      (due around).OpensWithin bound before ∧ (due around).OpensWithin bound after := by
  obtain ⟨branches, hrun, hbranches⟩ := h.place around
  cases hbranches nofun
  rw [List.replicate_zero, List.nil_append, haround] at hrun
  have hopens : ¬ (read around).Opens kind := by
    rintro rfl
    rw [← BinaryOp.ofKind?_eq_some_iff] at hop
    cases hop
  simp [opensWithin_append hrun, opensWithin_cons (step_read_of_operator hop), hopens]

/-- The two branches of a conditional are opened inside as many constructs. -/
theorem opensWithin_choice {first second third : List TokenKind} (hfirst : Phrase (.level 0) first)
    (hsecond : Phrase .conditional second) (haround : Construct.behindOperand around = around) :
    (due around).OpensWithin bound (first ++ .question :: (second ++ .colon :: third)) ↔
      (due around).OpensWithin bound first ∧ around.length < bound ∧
        (due (.whenTrue :: around)).OpensWithin bound second ∧
        (due (.whenFalse :: around)).OpensWithin bound third := by
  obtain ⟨branches, hrun, hbranches⟩ := hfirst.place around
  cases hbranches nofun
  rw [List.replicate_zero, List.nil_append, haround] at hrun
  obtain ⟨inner, htrue, -⟩ := hsecond.place (.whenTrue :: around)
  rw [Construct.behindOperand_cons .whenTrue _ nofun] at htrue
  have hcolon := step_colon (Construct.behindBranches_replicate inner .whenTrue around nofun)
  have hquestion : (read around).Opens .question := rfl
  have hbetween (constructs : List Construct) : ¬ (read constructs).Opens .colon := nofun
  simp [opensWithin_append hrun, opensWithin_cons step_question, opensWithin_append htrue,
    opensWithin_cons hcolon, hquestion, hbetween, Place.around]

end Place

/-- Inside which constructs a form may stand: right behind a prefix operator only its operand does. -/
def Form.StandsInside (around : List Construct) : Form → Prop
  | .conditional | .level _ => Construct.behindOperand around = around
  | .unary | .primary => True

namespace Derives

variable {bound opened : Nat} {form : Form} {tokens : List Token} {e : Expr}

/-- A tree within a bound on nesting opens its constructs within the bound. -/
theorem opensWithin (h : Derives (some bound) form opened tokens e) {around : List Construct}
    (haround : form.StandsInside around) (hopened : around.length = opened) :
    (Place.due around).OpensWithin bound (tokens.map (·.kind)) := by
  induction h generalizing around with
  | number hkind _ => exact Place.opensWithin_literal (.inl hkind)
  | text hkind => exact Place.opensWithin_literal (.inr (.inl hkind))
  | identifier hkind => exact Place.opensWithin_literal (.inr (.inr hkind))
  | parentheses hleft hright hallowed hinner ih =>
    subst hopened
    simpa [hleft, hright, Place.opensWithin_parentheses hinner.phrase] using
      ⟨hallowed bound rfl, ih rfl rfl⟩
  | primary _ ih => exact ih trivial hopened
  | prefixOp hop hallowed _ ih =>
    subst hopened
    exact (Place.opensWithin_prefixOp hop).mpr ⟨hallowed bound rfl, ih trivial rfl⟩
  | operand _ _ ih => exact ih trivial hopened
  | tighter _ _ ih => exact ih haround hopened
  | chain hop hleft _ ihLeft ihRight =>
    simpa [Place.opensWithin_chain hop hleft.phrase haround] using
      ⟨ihLeft haround hopened, ihRight haround hopened⟩
  | plain _ ih => exact ih haround hopened
  | choice hquestion hcolon hallowed hfirst hsecond _ ih ihTrue ihFalse =>
    subst hopened
    simpa [hquestion, hcolon, Place.opensWithin_choice hfirst.phrase hsecond.phrase haround] using
      ⟨ih haround rfl, hallowed bound rfl, ihTrue rfl rfl, ihFalse rfl rfl⟩

/-- A tree that opens its constructs within a bound is within the bound on nesting. -/
theorem bounded (h : Derives none form opened tokens e) {around : List Construct}
    (haround : form.StandsInside around)
    (hopens : (Place.due around).OpensWithin bound (tokens.map (·.kind))) :
    Derives (some bound) form around.length tokens e := by
  have hroom {around : List Construct} (hlt : around.length < bound) :
      ∀ limit ∈ some bound, around.length < limit := by
    rintro limit ⟨⟩
    exact hlt
  induction h generalizing around with
  | number hkind hvalue => exact .number hkind hvalue
  | text hkind => exact .text hkind
  | identifier hkind => exact .identifier hkind
  | parentheses hleft hright _ hinner ih =>
    simp only [List.map_cons, List.map_append, List.map_nil, hleft, hright,
      Place.opensWithin_parentheses hinner.phrase] at hopens
    exact .parentheses hleft hright (hroom hopens.1)
      (@ih (.parentheses :: around) rfl hopens.2)
  | primary _ ih => exact .primary (ih trivial hopens)
  | prefixOp hop _ _ ih =>
    rw [List.map_cons, Place.opensWithin_prefixOp hop] at hopens
    exact .prefixOp hop (hroom hopens.1) (ih trivial hopens.2)
  | operand hlevels _ ih => exact .operand hlevels (ih trivial hopens)
  | tighter hlevels _ ih => exact .tighter hlevels (ih haround hopens)
  | chain hop hleft _ ihLeft ihRight =>
    rw [List.map_append, List.map_cons, Place.opensWithin_chain hop hleft.phrase haround] at hopens
    exact .chain hop (ihLeft haround hopens.1) (ihRight haround hopens.2)
  | plain _ ih => exact .plain (ih haround hopens)
  | choice hquestion hcolon _ hfirst hsecond _ ih ihTrue ihFalse =>
    simp only [List.map_append, List.map_cons, hquestion, hcolon,
      Place.opensWithin_choice hfirst.phrase hsecond.phrase haround] at hopens
    obtain ⟨hopensFirst, hlt, hopensTrue, hopensFalse⟩ := hopens
    exact .choice hquestion hcolon (hroom hlt) (ih haround hopensFirst)
      (@ihTrue (.whenTrue :: around) rfl hopensTrue)
      (@ihFalse (.whenFalse :: around) rfl hopensFalse)

end Derives

/-- A token opens a construct that is the one of this depth among those that are open: just one less
is open around it. -/
def OpensAt (depth : Nat) (tokens : List Token) : Prop :=
  ∃ before token after place, tokens = before ++ token :: after ∧
    Place.behind before = some place ∧ place.Opens token.kind ∧ place.around.length + 1 = depth

/-- Where tokens are does not matter for what they open. -/
theorem opensAt_relocate {depth : Nat} {tokens : List Token} (f : Nat → Nat) :
    OpensAt depth (tokens.map (Token.relocate f)) ↔ OpensAt depth tokens := by
  have hbehind (before : List Token) :
      Place.behind (before.map (Token.relocate f)) = Place.behind before := by
    simp [Place.behind, Function.comp_def]
  constructor
  · rintro ⟨before, token, after, place, hsplit, hplace, hopens, hdepth⟩
    obtain ⟨before, others, rfl, rfl, hothers⟩ := List.map_eq_append_iff.mp hsplit
    obtain ⟨token, after, rfl, rfl, rfl⟩ := List.map_eq_cons_iff.mp hothers
    rw [hbehind] at hplace
    exact ⟨before, token, after, place, rfl, hplace, hopens, hdepth⟩
  · rintro ⟨before, token, after, place, rfl, hplace, hopens, hdepth⟩
    exact ⟨before.map (Token.relocate f), token.relocate f, after.map (Token.relocate f), place,
      by simp, (hbehind before).trans hplace, hopens, hdepth⟩

section Enclosed

variable {bound : Nat} {tokens : List Token} {e : Expr}

/-- A tree that is within a bound on nesting is within the bound below it, too, unless a token opens a
construct of this very depth. -/
theorem Derives.iff_not_opensAt (h : Derives (some (bound + 1)) .conditional 0 tokens e) :
    Derives (some bound) .conditional 0 tokens e ↔ ¬ OpensAt (bound + 1) tokens := by
  constructor
  · rintro hbelow ⟨before, token, after, place, rfl, hbehind, hopens, hdepth⟩
    have hwithin : (Place.due []).OpensWithin bound _ := hbelow.opensWithin rfl rfl
    rw [List.map_append, List.map_cons] at hwithin
    have hlt := Place.opensWithin_iff.mp hwithin _ _ _ place rfl hbehind hopens
    omega
  · intro hnone
    have hwithin : (Place.due []).OpensWithin (bound + 1) _ := h.opensWithin rfl rfl
    refine @bounded _ _ _ _ _ (h.unbounded 0) [] rfl (Place.opensWithin_iff.mpr ?_)
    intro before kind after place hsplit hrun hopens
    have hle := Place.opensWithin_iff.mp hwithin before kind after place hsplit hrun hopens
    obtain ⟨before, others, rfl, rfl, hothers⟩ := List.map_eq_append_iff.mp hsplit
    obtain ⟨token, after, rfl, rfl, rfl⟩ := List.map_eq_cons_iff.mp hothers
    have hne : place.around.length + 1 ≠ bound + 1 :=
      fun hdepth => hnone ⟨before, token, after, place, rfl, hrun, hopens, hdepth⟩
    omega

/-- A tree stands within a bound on nesting in parentheses exactly if it is within the bound below it
on its own. -/
theorem Derives.iff_enclosed {left right : Token} (hleft : left.kind = .leftParen)
    (hright : right.kind = .rightParen) (h : Derives none .conditional 0 tokens e) :
    Derives (some (bound + 1)) .conditional 0 (left :: (tokens ++ [right])) e ↔
      Derives (some bound) .conditional 0 tokens e := by
  constructor
  · intro henclosed
    have hwithin : (Place.due []).OpensWithin (bound + 1) _ := henclosed.opensWithin rfl rfl
    rw [List.map_cons, List.map_append, List.map_singleton, hleft, hright,
      Place.opensWithin_parentheses h.phrase] at hwithin
    have hinner : Derives _ _ [Construct.parentheses].length _ _ := h.bounded rfl hwithin.2
    refine hinner.moved fun deeper hdeeper limit hlimit => ?_
    cases hlimit
    have := hdeeper (bound + 1) rfl
    rw [List.length_singleton] at this
    omega
  · intro hinner
    have hmoved : Derives (some (bound + 1)) .conditional (0 + 1) tokens e := by
      refine hinner.moved fun deeper hdeeper limit hlimit => ?_
      cases hlimit
      have := hdeeper bound rfl
      omega
    have hallowed : ∀ limit ∈ some (bound + 1), 0 < limit := by
      rintro limit ⟨⟩
      exact Nat.succ_pos bound
    exact .plain (Derives.level (.primary (.parentheses hleft hright hallowed hmoved)) 0)

end Enclosed

end ScalarExpr
