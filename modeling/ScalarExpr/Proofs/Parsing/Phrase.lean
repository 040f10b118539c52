import ScalarExpr.Proofs.Parsing.Grammar

/-!
# Complete expressions by the kinds of their tokens

Whether tokens make a complete expression depends on their kinds alone, apart from numerals that
cannot be read. The grammar is said here once more for kinds, without trees and without limits.

Read from the left, a complete expression never needs to look ahead: it is enough to know whether an
operand is due and which closing tokens are missing. This progress is the same for all expressions
with the same start, so where it comes to nothing no complete expression goes on.
-/

namespace ScalarExpr

/-- The kinds that the tokens of a form have. -/
inductive Phrase : Form → List TokenKind → Prop
  | literal {kind : TokenKind} :
    kind = .number ∨ kind = .string ∨ kind = .identifier → Phrase .primary [kind]
  | parentheses {kinds : List TokenKind} :
    Phrase .conditional kinds → Phrase .primary (.leftParen :: (kinds ++ [.rightParen]))
  | primary {kinds : List TokenKind} : Phrase .primary kinds → Phrase .unary kinds
  | prefixOp {kind : TokenKind} {op : UnaryOp} {kinds : List TokenKind} :
    kind = op.kind → Phrase .unary kinds → Phrase .unary (kind :: kinds)
  | operand {tier : Nat} {kinds : List TokenKind} :
    BinaryOp.tiers.length ≤ tier → Phrase .unary kinds → Phrase (.level tier) kinds
  | tighter {tier : Nat} {kinds : List TokenKind} :
    tier < BinaryOp.tiers.length → Phrase (.level (tier + 1)) kinds → Phrase (.level tier) kinds
  | chain {kind : TokenKind} {op : BinaryOp} {before after : List TokenKind} :
    kind = op.kind → Phrase (.level op.tier) before → Phrase (.level (op.tier + 1)) after →
    Phrase (.level op.tier) (before ++ kind :: after)
  | plain {kinds : List TokenKind} : Phrase (.level 0) kinds → Phrase .conditional kinds
  | choice {first second third : List TokenKind} :
    Phrase (.level 0) first → Phrase .conditional second → Phrase .conditional third →
    Phrase .conditional (first ++ .question :: (second ++ .colon :: third))

namespace Phrase

variable {kinds : List TokenKind}

/-- Beyond the last level there are unary expressions only. -/
theorem unary_of_level {tier : Nat} (h : Phrase (.level tier) kinds)
    (htier : BinaryOp.tiers.length ≤ tier) : Phrase .unary kinds := by
  cases h with
  | operand _ hunary => exact hunary
  | tighter hlt _ => exact absurd hlt (Nat.not_lt.mpr htier)
  | @chain _ op => exact absurd op.tier_lt_length_tiers (Nat.not_lt.mpr htier)

/-- What is of a level is of every looser one. -/
theorem level_of_le {tier tier' : Nat} (h : Phrase (.level tier') kinds) (hle : tier ≤ tier') :
    Phrase (.level tier) kinds := by
  induction hle with
  | refl => exact h
  | @step bound _ ih =>
    rcases Nat.lt_or_ge bound BinaryOp.tiers.length with htier | htier
    · exact ih (tighter htier h)
    · exact ih (operand htier (h.unary_of_level (Nat.le_succ_of_le htier)))

/-- A name is a phrase of every form. -/
theorem name (form : Form) : Phrase form [.identifier] := by
  have hprimary : Phrase .primary [.identifier] := .literal (.inr (.inr rfl))
  have hlevel (tier : Nat) : Phrase (.level tier) [.identifier] :=
    (operand (Nat.le_max_right tier _) (.primary hprimary)).level_of_le (Nat.le_max_left _ _)
  cases form with
  | conditional => exact .plain (hlevel 0)
  | level tier => exact hlevel tier
  | unary => exact .primary hprimary
  | primary => exact hprimary

end Phrase

/-- What derives a tree is a phrase, and its numerals can be read. -/
theorem Derives.phrase {nesting : Option Nat} {form : Form} {opened : Nat} {tokens : List Token}
    {e : Expr} (h : Derives nesting form opened tokens e) : Phrase form (tokens.map (·.kind)) := by
  induction h with
  | number hkind _ => exact .literal (.inl hkind)
  | text hkind => exact .literal (.inr (.inl hkind))
  | identifier hkind => exact .literal (.inr (.inr hkind))
  | parentheses hleft hright _ _ ih => simpa [hleft, hright] using ih.parentheses
  | primary _ ih => exact ih.primary
  | prefixOp hop _ _ ih => exact ih.prefixOp hop
  | operand hlevels _ ih => exact ih.operand hlevels
  | tighter hlevels _ ih => exact ih.tighter hlevels
  | chain hop _ _ ihLeft ihRight => simpa using Phrase.chain hop ihLeft ihRight
  | plain _ ih => exact ih.plain
  | choice hquestion hcolon _ _ _ _ ih ihTrue ihFalse =>
    simpa [hquestion, hcolon] using Phrase.choice ih ihTrue ihFalse

/-- A phrase whose numerals can be read derives a tree. -/
theorem Phrase.exists_derives {form : Form} {kinds : List TokenKind} (h : Phrase form kinds)
    {tokens : List Token} (htokens : tokens.map (·.kind) = kinds) (opened : Nat)
    (hnumbers : ∀ token ∈ tokens, token.kind = .number →
      (Number.ofNumeral? token.text.toList).isSome) :
    ∃ e, Derives none form opened tokens e := by
  have hopen (opened : Nat) : ∀ bound ∈ (none : Option Nat), opened < bound := nofun
  induction h generalizing tokens opened with
  | literal hkind =>
    obtain ⟨token, rfl, rfl⟩ := List.map_eq_singleton_iff.mp htokens
    rcases hkind with hkind | hkind | hkind
    · obtain ⟨value, hvalue⟩ := Option.isSome_iff_exists.mp
        (hnumbers token (List.mem_singleton_self _) hkind)
      exact ⟨_, .number hkind hvalue⟩
    · exact ⟨_, .text hkind⟩
    · exact ⟨_, .identifier hkind⟩
  | parentheses _ ih =>
    obtain ⟨left, rest, rfl, hleft, hrest⟩ := List.map_eq_cons_iff.mp htokens
    obtain ⟨inner, last, rfl, hinner, hlast⟩ := List.map_eq_append_iff.mp hrest
    obtain ⟨right, rfl, hright⟩ := List.map_eq_singleton_iff.mp hlast
    obtain ⟨e, he⟩ := ih hinner (opened + 1) fun token htoken => hnumbers token (by simp [htoken])
    exact ⟨e, .parentheses hleft hright (hopen _) he⟩
  | primary _ ih =>
    obtain ⟨e, he⟩ := ih htokens opened hnumbers
    exact ⟨e, .primary he⟩
  | prefixOp hop _ ih =>
    obtain ⟨token, rest, rfl, rfl, hrest⟩ := List.map_eq_cons_iff.mp htokens
    obtain ⟨e, he⟩ := ih hrest (opened + 1) fun token htoken => hnumbers token (by simp [htoken])
    exact ⟨_, .prefixOp hop (hopen _) he⟩
  | operand hlevels _ ih =>
    obtain ⟨e, he⟩ := ih htokens opened hnumbers
    exact ⟨e, .operand hlevels he⟩
  | tighter hlevels _ ih =>
    obtain ⟨e, he⟩ := ih htokens opened hnumbers
    exact ⟨e, .tighter hlevels he⟩
  | chain hop _ _ ihLeft ihRight =>
    obtain ⟨before, rest, rfl, hbefore, hrest⟩ := List.map_eq_append_iff.mp htokens
    obtain ⟨token, after, rfl, rfl, hafter⟩ := List.map_eq_cons_iff.mp hrest
    obtain ⟨left, hleft⟩ := ihLeft hbefore opened fun token htoken =>
      hnumbers token (by simp [htoken])
    obtain ⟨right, hright⟩ := ihRight hafter opened fun token htoken =>
      hnumbers token (by simp [htoken])
    exact ⟨_, .chain hop hleft hright⟩
  | plain _ ih =>
    obtain ⟨e, he⟩ := ih htokens opened hnumbers
    exact ⟨e, .plain he⟩
  | choice _ _ _ ih ihTrue ihFalse =>
    obtain ⟨first, rest, rfl, hfirst, hrest⟩ := List.map_eq_append_iff.mp htokens
    obtain ⟨question, rest, rfl, hquestion, hrest⟩ := List.map_eq_cons_iff.mp hrest
    obtain ⟨second, rest, rfl, hsecond, hrest⟩ := List.map_eq_append_iff.mp hrest
    obtain ⟨colon, third, rfl, hcolon, hthird⟩ := List.map_eq_cons_iff.mp hrest
    obtain ⟨condition, hcondition⟩ := ih hfirst opened fun token htoken =>
      hnumbers token (by simp [htoken])
    obtain ⟨whenTrue, htrue⟩ := ihTrue hsecond (opened + 1) fun token htoken =>
      hnumbers token (by simp [htoken])
    obtain ⟨whenFalse, hfalse⟩ := ihFalse hthird (opened + 1) fun token htoken =>
      hnumbers token (by simp [htoken])
    exact ⟨_, .choice hquestion hcolon (hopen _) hcondition htrue hfalse⟩

/-- Tokens that make a complete expression, whatever their numerals say. -/
def Complete (tokens : List Token) : Prop := Phrase .conditional (tokens.map (·.kind))

/-- Without limits, the tokens of a complete expression are those that derive a tree, but for
numerals that cannot be read. -/
theorem exists_derives_iff_complete {tokens : List Token}
    (hnumbers : ∀ token ∈ tokens, token.kind = .number →
      (Number.ofNumeral? token.text.toList).isSome) :
    (∃ e, Derives none .conditional 0 tokens e) ↔ Complete tokens :=
  ⟨fun ⟨_, he⟩ => he.phrase, fun h => Phrase.exists_derives h rfl 0 hnumbers⟩

/-- How far the start of an expression has come: an operand is due, or one has just been read. The
closing tokens that are still missing are listed, the innermost first. -/
inductive Progress
  | due (pending : List Closer)
  | read (pending : List Closer)
  deriving DecidableEq, Repr

namespace Progress

/-- What a token of a kind leads to, if one may come next. The branches of a conditional end where
what surrounds them goes on, so nothing is missing any more after the colon. -/
def step : Progress → TokenKind → Option Progress
  | due pending, kind =>
    if (UnaryOp.ofKind? kind).isSome then some (due pending)
    else
      match kind with
      | .number | .string | .identifier => some (read pending)
      | .leftParen => some (due (.rightParen :: pending))
      | _ => none
  | read pending, kind =>
    if (BinaryOp.ofKind? kind).isSome then some (due pending)
    else
      match kind, pending with
      | .question, pending => some (due (.colon :: pending))
      | .colon, .colon :: pending => some (due pending)
      | .rightParen, .rightParen :: pending => some (read pending)
      | _, _ => none

/-- What a row of kinds leads to. -/
def run (progress : Progress) (kinds : List TokenKind) : Option Progress :=
  kinds.foldlM step progress

variable {progress progress' : Progress} {kind : TokenKind} {kinds kinds' : List TokenKind}

@[simp] theorem run_cons :
    progress.run (kind :: kinds) = (progress.step kind).bind (·.run kinds) := by
  rw [run, List.foldlM_cons]
  rfl

/-- A row is run through part by part. -/
theorem run_append : progress.run (kinds ++ kinds') = (progress.run kinds).bind (·.run kinds') := by
  rw [run, List.foldlM_append]
  rfl

/-- A prefix operator leaves an operand due. -/
theorem step_due_of_prefix {pending : List Closer} {op : UnaryOp}
    (h : kind = op.kind) : (due pending).step kind = some (due pending) :=
  if_pos (Option.isSome_of_eq_some (UnaryOp.ofKind?_eq_some_iff.mpr h))

/-- A binary operator makes an operand due. -/
theorem step_read_of_operator {pending : List Closer} {op : BinaryOp}
    (h : kind = op.kind) : (read pending).step kind = some (due pending) :=
  if_pos (Option.isSome_of_eq_some (BinaryOp.ofKind?_eq_some_iff.mpr h))

/-- The end of input never comes next. -/
theorem step_endOfInput : progress.step .endOfInput = none := by
  cases progress with
  | due pending => rfl
  | read pending => cases pending <;> rfl

end Progress

/-- A phrase is read where an operand is due, whatever is missing around it. -/
theorem Phrase.run {form : Form} {kinds : List TokenKind} (h : Phrase form kinds)
    (pending : List Closer) : (Progress.due pending).run kinds = some (.read pending) := by
  induction h generalizing pending with
  | literal hkind => rcases hkind with rfl | rfl | rfl <;> rfl
  | parentheses _ ih =>
    rw [Progress.run_cons]
    change (Progress.due (.rightParen :: pending)).run _ = _
    rw [Progress.run_append, ih]
    rfl
  | primary _ ih | operand _ _ ih | tighter _ _ ih | plain _ ih => exact ih pending
  | prefixOp hop _ ih =>
    rw [Progress.run_cons, Progress.step_due_of_prefix hop]
    exact ih pending
  | chain hop _ _ ihLeft ihRight =>
    rw [Progress.run_append, ihLeft, Option.bind_some, Progress.run_cons,
      Progress.step_read_of_operator hop]
    exact ihRight pending
  | choice _ _ _ ih ihTrue ihFalse =>
    rw [Progress.run_append, ih, Option.bind_some, Progress.run_cons]
    change (Progress.due (.colon :: pending)).run _ = _
    rw [Progress.run_append, ihTrue, Option.bind_some, Progress.run_cons]
    exact ihFalse pending

/-- What follows a phrase is run through behind an operand. -/
theorem Phrase.run_append {form : Form} {kinds : List TokenKind} (h : Phrase form kinds)
    (pending : List Closer) (more : List TokenKind) :
    (Progress.due pending).run (kinds ++ more) = (Progress.read pending).run more := by
  rw [Progress.run_append, h.run, Option.bind_some]

/-- Where progress comes to nothing, no complete expression goes on. -/
theorem not_complete_of_step {before after : List Token} {token : Token} {progress : Progress}
    (hrun : (Progress.due []).run (before.map (·.kind)) = some progress)
    (hstep : progress.step token.kind = none) : ¬ Complete (before ++ token :: after) := by
  intro hcomplete
  have hall := hcomplete.run []
  rw [List.map_append, List.map_cons, Progress.run_append, hrun, Option.bind_some,
    Progress.run_cons, hstep] at hall
  cases hall

/-- Where an operand is due or a closing token is missing, no complete expression ends. -/
theorem not_complete_of_ne {before : List Token} {progress : Progress}
    (hrun : (Progress.due []).run (before.map (·.kind)) = some progress)
    (hne : progress ≠ .read []) : ¬ Complete before := by
  intro hcomplete
  have hall := hcomplete.run []
  rw [hrun] at hall
  exact hne (Option.some.inj hall)

end ScalarExpr
