import ScalarExpr.Proofs.Parsing.Phrase

/-!
# What is open around a token

Read from the left, the kinds of the tokens before a token tell which constructs are open around it.
Parentheses are open up to the one that closes them, the first branch of a conditional up to its
colon, and a prefix operator up to the end of its operand. The second branch of a conditional goes as
far as it can, so it ends only where something around the conditional is closed.

Nothing is said here about how many constructs may be open.
-/

namespace ScalarExpr

/-- The constructs that limits count. -/
inductive Construct
  | parentheses
  | prefixOp
  | whenTrue
  | whenFalse
  deriving DecidableEq, Repr

/-- What stays open behind an operand: all but the prefix operators right before it. -/
def Construct.behindOperand (around : List Construct) : List Construct :=
  around.dropWhile (· = .prefixOp)

/-- What is open where the second branches that go on so far are ended. -/
def Construct.behindBranches (around : List Construct) : List Construct :=
  around.dropWhile (· = .whenFalse)

/-- A place between tokens: an operand is due there, or one has just been read. The constructs that
are open around it are listed, the innermost first. -/
inductive Place
  | due (around : List Construct)
  | read (around : List Construct)
  deriving DecidableEq, Repr

namespace Place

/-- The constructs that are open around a place. -/
def around : Place → List Construct
  | due around => around
  | read around => around

/-- The place behind a token of a kind, if one may come next. -/
def step : Place → TokenKind → Option Place
  | due around, kind =>
    if (UnaryOp.ofKind? kind).isSome then some (due (.prefixOp :: around))
    else
      match kind with
      | .number | .string | .identifier => some (read (Construct.behindOperand around))
      | .leftParen => some (due (.parentheses :: around))
      | _ => none
  | read around, kind =>
    if (BinaryOp.ofKind? kind).isSome then some (due around)
    else
      match kind, Construct.behindBranches around with
      | .question, _ => some (due (.whenTrue :: around))
      | .colon, .whenTrue :: outer => some (due (.whenFalse :: outer))
      | .rightParen, .parentheses :: outer => some (read (Construct.behindOperand outer))
      | _, _ => none

/-- The place behind a row of kinds. -/
def run (place : Place) (kinds : List TokenKind) : Option Place :=
  kinds.foldlM step place

/-- Whether a token of a kind opens a construct at a place. What follows a colon is a construct too,
but one that takes the place of another. -/
def Opens : Place → TokenKind → Prop
  | due _, kind => kind = .leftParen ∨ ∃ op : UnaryOp, kind = op.kind
  | read _, kind => kind = .question

variable {place place' : Place} {kind : TokenKind} {kinds kinds' : List TokenKind}
  {around outer : List Construct}

@[simp] theorem run_nil : place.run [] = some place := rfl

@[simp] theorem run_cons : place.run (kind :: kinds) = (place.step kind).bind (·.run kinds) := by
  rw [run, List.foldlM_cons]
  rfl

/-- A row is run through part by part. -/
theorem run_append : place.run (kinds ++ kinds') = (place.run kinds).bind (·.run kinds') := by
  rw [run, List.foldlM_append]
  rfl

/-- A prefix operator is open before its operand. -/
theorem step_due_of_prefix {op : UnaryOp} (h : kind = op.kind) :
    (due around).step kind = some (due (.prefixOp :: around)) :=
  if_pos (Option.isSome_of_eq_some (UnaryOp.ofKind?_eq_some_iff.mpr h))

/-- A binary operator opens nothing. -/
theorem step_read_of_operator {op : BinaryOp} (h : kind = op.kind) :
    (read around).step kind = some (due around) :=
  if_pos (Option.isSome_of_eq_some (BinaryOp.ofKind?_eq_some_iff.mpr h))

/-- An opening parenthesis is open before what stands in it. -/
theorem step_leftParen : (due around).step .leftParen = some (due (.parentheses :: around)) := rfl

/-- A question mark opens the first branch of a conditional. -/
theorem step_question : (read around).step .question = some (due (.whenTrue :: around)) := rfl

/-- A colon ends the first branch of a conditional, and the second branches in it. -/
theorem step_colon (h : Construct.behindBranches around = .whenTrue :: outer) :
    (read around).step .colon = some (due (.whenFalse :: outer)) := by
  simp [step, h, BinaryOp.ofKind?]

/-- A closing parenthesis ends what is open up to the opening one. -/
theorem step_rightParen (h : Construct.behindBranches around = .parentheses :: outer) :
    (read around).step .rightParen = some (read (Construct.behindOperand outer)) := by
  simp [step, h, BinaryOp.ofKind?]

end Place

/-- What is open behind an operand is open behind the next one as well. -/
theorem Construct.behindOperand_idem (around : List Construct) :
    behindOperand (behindOperand around) = behindOperand around := by
  induction around with
  | nil => rfl
  | cons construct around ih =>
    cases construct with
    | prefixOp => exact ih
    | parentheses | whenTrue | whenFalse => rfl

/-- Only prefix operators end with their operand. -/
theorem Construct.behindOperand_cons (construct : Construct) (around : List Construct)
    (h : construct ≠ .prefixOp) : behindOperand (construct :: around) = construct :: around :=
  List.dropWhile_cons_of_neg (by simpa using h)

/-- Second branches that go on so far hide nothing else. -/
theorem Construct.behindBranches_replicate (branches : Nat) (construct : Construct)
    (outer : List Construct) (h : construct ≠ .whenFalse) :
    behindBranches (List.replicate branches .whenFalse ++ construct :: outer) =
      construct :: outer := by
  induction branches with
  | zero => exact List.dropWhile_cons_of_neg (by simpa using h)
  | succ branches ih => exact ih

/-- Behind a phrase the same constructs are open as behind any operand in its place, and second
branches of its own if it is a conditional. -/
theorem Phrase.place {form : Form} {kinds : List TokenKind} (h : Phrase form kinds)
    (around : List Construct) :
    ∃ branches, (Place.due around).run kinds =
        some (.read (List.replicate branches .whenFalse ++ Construct.behindOperand around)) ∧
      (form ≠ .conditional → branches = 0) := by
  induction h generalizing around with
  | literal hkind => exact ⟨0, by rcases hkind with rfl | rfl | rfl <;> rfl, fun _ => rfl⟩
  | parentheses _ ih =>
    obtain ⟨branches, hinner, -⟩ := ih (.parentheses :: around)
    rw [Construct.behindOperand_cons .parentheses around nofun] at hinner
    have hclose := Construct.behindBranches_replicate branches .parentheses around nofun
    refine ⟨0, ?_, fun _ => rfl⟩
    rw [Place.run_cons, Place.step_leftParen, Option.bind_some, Place.run_append, hinner,
      Option.bind_some, Place.run_cons, Place.step_rightParen hclose]
    rfl
  | primary _ ih | operand _ _ ih | tighter _ _ ih =>
    obtain ⟨branches, hrun, hbranches⟩ := ih around
    exact ⟨branches, hrun, fun _ => hbranches nofun⟩
  | prefixOp hop _ ih =>
    obtain ⟨branches, hrun, hbranches⟩ := ih (.prefixOp :: around)
    refine ⟨branches, ?_, fun _ => hbranches nofun⟩
    rw [Place.run_cons, Place.step_due_of_prefix hop]
    exact hrun
  | chain hop _ _ ihLeft ihRight =>
    obtain ⟨branches, hleft, hbranches⟩ := ihLeft around
    cases hbranches nofun
    obtain ⟨branches, hright, hbranches⟩ := ihRight (Construct.behindOperand around)
    cases hbranches nofun
    simp only [List.replicate_zero, List.nil_append, Construct.behindOperand_idem] at hleft hright
    refine ⟨0, ?_, fun _ => rfl⟩
    rw [Place.run_append, hleft, Option.bind_some, Place.run_cons, Place.step_read_of_operator hop]
    exact hright
  | plain _ ih =>
    obtain ⟨branches, hrun, hbranches⟩ := ih around
    cases hbranches nofun
    exact ⟨0, hrun, fun _ => rfl⟩
  | choice _ _ _ ih ihTrue ihFalse =>
    obtain ⟨branches, hrun, hbranches⟩ := ih around
    cases hbranches nofun
    simp only [List.replicate_zero, List.nil_append] at hrun
    obtain ⟨inner, htrue, -⟩ := ihTrue (.whenTrue :: Construct.behindOperand around)
    obtain ⟨last, hfalse, -⟩ := ihFalse (.whenFalse :: Construct.behindOperand around)
    rw [Construct.behindOperand_cons .whenTrue _ nofun] at htrue
    rw [Construct.behindOperand_cons .whenFalse _ nofun] at hfalse
    have hcolon := Construct.behindBranches_replicate inner .whenTrue
      (Construct.behindOperand around) nofun
    refine ⟨last + 1, ?_, fun hne => absurd rfl hne⟩
    rw [Place.run_append, hrun, Option.bind_some, Place.run_cons, Place.step_question,
      Option.bind_some, Place.run_append, htrue, Option.bind_some, Place.run_cons,
      Place.step_colon hcolon, Option.bind_some, hfalse, List.replicate_succ', List.append_assoc]
    rfl

end ScalarExpr
