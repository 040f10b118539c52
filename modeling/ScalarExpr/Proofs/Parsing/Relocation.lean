import ScalarExpr.Proofs.Expr.Relocation
import ScalarExpr.Proofs.Parsing.Reads

/-!
# Moving tokens

Tokens whose offsets are moved by any function are read to the same tree or error, moved. A reading
looks at kinds and texts, counts what is open and takes heights of trees, and none of this depends on
offsets.
-/

namespace ScalarExpr

variable (f : Nat → Nat)

namespace Token

/-- The token with its offset moved. -/
def relocate (token : Token) : Token := { token with offset := f token.offset }

variable (token : Token)

@[simp] theorem kind_relocate : (token.relocate f).kind = token.kind := rfl

@[simp] theorem offset_relocate : (token.relocate f).offset = f token.offset := rfl

end Token

namespace ParseError

/-- The error with its offset moved. -/
def relocate : ParseError → ParseError
  | unexpectedToken text offset => unexpectedToken text (f offset)
  | expected closer offset => expected closer (f offset)
  | trailingToken text offset => trailingToken text (f offset)
  | invalidNumber offset => invalidNumber (f offset)
  | tooDeep offset => tooDeep (f offset)

variable (error : ParseError)

/-- An error that is moved is attributed to the moved offset. -/
@[simp] theorem offset_relocate : (error.relocate f).offset = f error.offset := by
  cases error <;> rfl

/-- The message of an error does not depend on where it is. -/
@[simp] theorem message_relocate : (error.relocate f).message = error.message := by
  cases error <;> rfl

end ParseError

section Ahead

variable (tokens : List Token)

/-- The offset of the first token is moved with the tokens and the end of input. -/
theorem Setting.offset_relocate (limits : Limits) (stop : Nat) :
    (Setting.mk limits (f stop)).offset (tokens.map (Token.relocate f)) =
      f ((Setting.mk limits stop).offset tokens) := by
  cases tokens <;> rfl

/-- A question mark is moved with the tokens. -/
theorem questionAt?_relocate :
    questionAt? (tokens.map (Token.relocate f)) =
      (questionAt? tokens).map fun (offset, rest) => (f offset, rest.map (Token.relocate f)) := by
  cases tokens with
  | nil => rfl
  | cons token tokens =>
    by_cases hkind : token.kind = .question <;> simp [questionAt?, hkind]

/-- An operator is moved with the tokens. -/
theorem operatorAt?_relocate (precedence : Nat) :
    operatorAt? precedence (tokens.map (Token.relocate f)) =
      (operatorAt? precedence tokens).map fun (op, offset, rest) =>
        (op, f offset, rest.map (Token.relocate f)) := by
  cases tokens with
  | nil => rfl
  | cons token tokens =>
    cases hop : BinaryOp.ofKind? token.kind with
    | none => simp [operatorAt?, hop]
    | some op =>
      by_cases hprecedence : op.precedence = precedence <;> simp [operatorAt?, hop, hprecedence]

/-- A closing token is moved with the tokens. -/
theorem Closer.skip?_relocate (closer : Closer) :
    closer.skip? (tokens.map (Token.relocate f)) =
      (closer.skip? tokens).map fun (token, rest) =>
        (token.relocate f, rest.map (Token.relocate f)) := by
  cases tokens with
  | nil => rfl
  | cons token tokens =>
    by_cases hkind : token.kind = closer.kind <;> simp [skip?, hkind]

end Ahead

/-- What there is to read, with the offsets of the left operand moved. -/
def Task.relocate : Task → Task
  | .form read => .form read
  | .chain precedence left height => .chain precedence (left.relocate f) height

namespace Parse

/-- A tree or an error, with offsets moved. -/
def relocated : Except ParseError Expr → Except ParseError Expr
  | .ok e => .ok (e.relocate f)
  | .error error => .error (error.relocate f)

variable {limits : Limits} {stop : Nat} {task : Task} {opened : Nat} {tokens rest : List Token}
  {result : Except ParseError Expr}

/-- A reading of tokens that are moved takes the same course. -/
theorem Reads.relocate (h : Reads ⟨limits, stop⟩ task opened tokens result rest) :
    Reads ⟨limits, f stop⟩ (task.relocate f) opened (tokens.map (Token.relocate f))
      (relocated f result) (rest.map (Token.relocate f)) := by
  induction h with
  | conditionFails _ ih => exact .conditionFails ih
  | plain _ hquestion ih =>
    exact .plain ih (by rw [questionAt?_relocate, hquestion]; rfl)
  | questionTooDeep _ hquestion hrefused ih =>
    exact .questionTooDeep ih (by rw [questionAt?_relocate, hquestion]; rfl) hrefused
  | whenTrueFails _ hquestion hallowed _ ih ihTrue =>
    exact .whenTrueFails ih (by rw [questionAt?_relocate, hquestion]; rfl) hallowed ihTrue
  | colonMissing _ hquestion hallowed _ hcolon ih ihTrue =>
    rw [relocated, ParseError.relocate, ← Setting.offset_relocate f]
    exact .colonMissing ih (by rw [questionAt?_relocate, hquestion]; rfl) hallowed ihTrue
      (by rw [Closer.skip?_relocate, hcolon]; rfl)
  | whenFalseFails _ hquestion hallowed _ hcolon _ ih ihTrue ihFalse =>
    exact .whenFalseFails ih (by rw [questionAt?_relocate, hquestion]; rfl) hallowed ihTrue
      (by rw [Closer.skip?_relocate, hcolon]; rfl) ihFalse
  | choice _ hquestion hallowed _ hcolon _ ih ihTrue ihFalse =>
    exact .choice ih (by rw [questionAt?_relocate, hquestion]; rfl) hallowed ihTrue
      (by rw [Closer.skip?_relocate, hcolon]; rfl) ihFalse
  | leftFails hlevels _ ih => exact .leftFails hlevels ih
  | chained hlevels _ _ ih ihChain =>
    exact .chained hlevels ih (by rwa [Task.relocate, ← Expr.height_relocate f] at ihChain)
  | operand hlevels _ ih => exact .operand hlevels ih
  | chainEnds hoperator => exact .chainEnds (by rw [operatorAt?_relocate, hoperator]; rfl)
  | rightFails hoperator _ ih =>
    exact .rightFails (by rw [operatorAt?_relocate, hoperator]; rfl) ih
  | tooHigh hoperator _ hrefused ih =>
    exact .tooHigh (by rw [operatorAt?_relocate, hoperator]; rfl) ih
      (by rwa [Expr.height_relocate])
  | chainGoesOn hoperator _ hallowed _ ih ihChain =>
    exact .chainGoesOn (by rw [operatorAt?_relocate, hoperator]; rfl) ih
      (by rwa [Expr.height_relocate]) (by rwa [Task.relocate, ← Expr.height_relocate f] at ihChain)
  | noPrefix hprefix _ ih => exact .noPrefix (by simpa using hprefix) ih
  | prefixTooDeep hop hrefused => exact .prefixTooDeep hop hrefused
  | prefixFails hop hallowed _ ih => exact .prefixFails hop hallowed ih
  | prefixOp hop hallowed _ ih => exact .prefixOp hop hallowed ih
  | endOfInput => exact .endOfInput
  | number hkind hvalue => exact .number hkind hvalue
  | invalidNumber hkind hvalue => exact .invalidNumber hkind hvalue
  | text hkind => exact .text hkind
  | identifier hkind => exact .identifier hkind
  | parenTooDeep hkind hrefused => exact .parenTooDeep hkind hrefused
  | innerFails hkind hallowed _ ih => exact .innerFails hkind hallowed ih
  | parenMissing hkind hallowed _ hparen ih =>
    rw [relocated, ParseError.relocate, ← Setting.offset_relocate f]
    exact .parenMissing hkind hallowed ih (by rw [Closer.skip?_relocate, hparen]; rfl)
  | parentheses hkind hallowed _ hparen ih =>
    exact .parentheses hkind hallowed ih (by rw [Closer.skip?_relocate, hparen]; rfl)
  | unexpected hnumber hstring hidentifier hparen =>
    exact .unexpected hnumber hstring hidentifier hparen

end Parse

/-- Tokens that are moved make the same tree or error, moved. -/
theorem TokenStream.parse_relocate (limits : Limits) (tokens : List Token) (stop : Nat) :
    ((⟨tokens.map (Token.relocate f), f stop⟩ : TokenStream).parse limits).1 =
      Parse.relocated f ((⟨tokens, stop⟩ : TokenStream).parse limits).1 := by
  have hmoved {result : Except ParseError Expr} {rest : List Token}
      (h : Parse.answer ⟨limits, stop⟩ 0 tokens (.form .conditional) = (result, rest)) :
      Parse.answer ⟨limits, f stop⟩ 0 (tokens.map (Token.relocate f)) (.form .conditional) =
        (Parse.relocated f result, rest.map (Token.relocate f)) :=
    ((Parse.answer_eq_iff_reads.mp h).relocate f).answer_eq
  cases houtcome : Parse.conditional ⟨limits, stop⟩ 0 tokens with
  | failed error rest =>
    have hfailed := Outcome.eq_failed (hmoved (congrArg Outcome.answer houtcome))
    rw [parse, parse, houtcome, hfailed]
    rfl
  | done e rest shorter =>
    obtain ⟨_, hdone⟩ := Outcome.eq_done (hmoved (congrArg Outcome.answer houtcome))
    rw [parse, parse, houtcome, hdone]
    cases rest <;> rfl

end ScalarExpr
