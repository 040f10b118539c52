import ScalarExpr.Proofs.Parsing.Grammar

/-!
# The course of a reading

The functions that read tokens call each other and answer with bounds on what is left. This file
describes the same readings by one relation without bounds. It has a rule for each way in which a
reading can go, failures included, so that a property of all readings is proved by one induction
over the relation. Every answer of the functions is described, and only these.
-/

namespace ScalarExpr

/-- A chain goes on exactly with an operator that binds as tightly. -/
theorem operatorAt?_eq_some_iff {precedence offset : Nat} {op : BinaryOp} {tokens rest : List Token} :
    operatorAt? precedence tokens = some (op, offset, rest) ↔
      ∃ token, tokens = token :: rest ∧ token.kind = op.kind ∧ op.tier = precedence ∧
        token.offset = offset := by
  simp only [← BinaryOp.ofKind?_eq_some_iff, ← BinaryOp.precedence_eq_tier]
  cases tokens with
  | nil => simp [operatorAt?]
  | cons token others =>
    cases hop : BinaryOp.ofKind? token.kind with
    | none => simp [operatorAt?, hop]
    | some op' => grind [operatorAt?]

/-- A chain ends exactly where no operator follows that binds as tightly. -/
theorem operatorAt?_eq_none_iff {precedence : Nat} {tokens : List Token} :
    operatorAt? precedence tokens = none ↔
      ∀ token ∈ tokens.head?, ∀ op : BinaryOp, token.kind = op.kind → op.tier ≠ precedence := by
  simp only [← BinaryOp.ofKind?_eq_some_iff, ← BinaryOp.precedence_eq_tier]
  cases tokens with
  | nil => simp [operatorAt?]
  | cons token others =>
    cases hop : BinaryOp.ofKind? token.kind with
    | none => simp [operatorAt?, hop]
    | some op' => simp [operatorAt?, hop]

/-- Branches follow exactly after a question mark. -/
theorem questionAt?_eq_some_iff {offset : Nat} {tokens rest : List Token} :
    questionAt? tokens = some (offset, rest) ↔
      ∃ token, tokens = token :: rest ∧ token.kind = .question ∧ token.offset = offset := by
  cases tokens with
  | nil => simp [questionAt?]
  | cons token others => grind [questionAt?]

/-- No branches follow exactly where there is no question mark. -/
theorem questionAt?_eq_none_iff {tokens : List Token} :
    questionAt? tokens = none ↔ ∀ token ∈ tokens.head?, token.kind ≠ .question := by
  cases tokens with
  | nil => simp [questionAt?]
  | cons token others => simp [questionAt?]

/-- A construct is closed exactly by a token of the kind that it asks for. -/
theorem Closer.skip?_eq_some_iff {closer : Closer} {token : Token} {tokens rest : List Token} :
    closer.skip? tokens = some (token, rest) ↔ tokens = token :: rest ∧ token.kind = closer.kind := by
  cases tokens with
  | nil => simp [skip?]
  | cons first others => grind [skip?]

/-- What there is to read: a form, or what follows the left operand of a chain of operators. -/
inductive Task
  | form (form : Form)
  | chain (precedence : Nat) (left : Expr) (height : Nat)

namespace Outcome

variable {bound : Nat}

/-- A tree or an error, and the tokens from which reading goes on. -/
def answer : Outcome bound → Except ParseError Expr × List Token
  | done expr rest _ => (.ok expr, rest)
  | failed error rest => (.error error, rest)

@[simp] theorem answer_done (expr : Expr) (rest : List Token) (shorter : rest.length < bound) :
    (done expr rest shorter).answer = (.ok expr, rest) := rfl

@[simp] theorem answer_failed (error : ParseError) (rest : List Token) :
    (failed error rest : Outcome bound).answer = (.error error, rest) := rfl

@[simp] theorem answer_widen {bound' : Nat} (outcome : Outcome bound) (h : bound ≤ bound') :
    (outcome.widen h).answer = outcome.answer := by
  cases outcome <;> rfl

/-- A tree comes from a reading that is done. -/
theorem eq_done {outcome : Outcome bound} {expr : Expr} {rest : List Token}
    (h : outcome.answer = (.ok expr, rest)) : ∃ shorter, outcome = done expr rest shorter := by
  cases outcome with
  | done expr' rest' shorter => cases h; exact ⟨shorter, rfl⟩
  | failed error rest' => cases h

/-- An error comes from a reading that has failed. -/
theorem eq_failed {outcome : Outcome bound} {error : ParseError} {rest : List Token}
    (h : outcome.answer = (.error error, rest)) : outcome = failed error rest := by
  cases outcome with
  | done expr' rest' shorter => cases h
  | failed error' rest' => cases h; rfl

end Outcome

namespace Parse

/-- The answer of the function that reads this. -/
def answer (setting : Setting) (opened : Nat) (tokens : List Token) :
    Task → Except ParseError Expr × List Token
  | .form .conditional => (conditional setting opened tokens).answer
  | .form (.level precedence) => (level setting opened precedence tokens).answer
  | .form .unary => (unary setting opened tokens).answer
  | .form .primary => (primary setting opened tokens).answer
  | .chain precedence left height => (extend setting opened precedence left height tokens).answer

/-- The course of a reading, with one rule for each way in which it can go. -/
inductive Reads (setting : Setting) :
    Task → Nat → List Token → Except ParseError Expr → List Token → Prop
  | conditionFails {opened tokens error rest} :
    Reads setting (.form (.level 0)) opened tokens (.error error) rest →
    Reads setting (.form .conditional) opened tokens (.error error) rest
  | plain {opened tokens condition rest} :
    Reads setting (.form (.level 0)) opened tokens (.ok condition) rest →
    questionAt? rest = none →
    Reads setting (.form .conditional) opened tokens (.ok condition) rest
  | questionTooDeep {opened tokens condition rest question afterQuestion} :
    Reads setting (.form (.level 0)) opened tokens (.ok condition) rest →
    questionAt? rest = some (question, afterQuestion) →
    setting.limits.allowsInside opened = false →
    Reads setting (.form .conditional) opened tokens (.error (.tooDeep question)) afterQuestion
  | whenTrueFails {opened tokens condition rest question afterQuestion error rest'} :
    Reads setting (.form (.level 0)) opened tokens (.ok condition) rest →
    questionAt? rest = some (question, afterQuestion) →
    setting.limits.allowsInside opened = true →
    Reads setting (.form .conditional) (opened + 1) afterQuestion (.error error) rest' →
    Reads setting (.form .conditional) opened tokens (.error error) rest'
  | colonMissing {opened tokens condition rest question afterQuestion whenTrue rest'} :
    Reads setting (.form (.level 0)) opened tokens (.ok condition) rest →
    questionAt? rest = some (question, afterQuestion) →
    setting.limits.allowsInside opened = true →
    Reads setting (.form .conditional) (opened + 1) afterQuestion (.ok whenTrue) rest' →
    Closer.colon.skip? rest' = none →
    Reads setting (.form .conditional) opened tokens
      (.error (.expected .colon (setting.offset rest'))) rest'
  | whenFalseFails {opened tokens condition rest question afterQuestion whenTrue rest' colon
      afterColon error rest''} :
    Reads setting (.form (.level 0)) opened tokens (.ok condition) rest →
    questionAt? rest = some (question, afterQuestion) →
    setting.limits.allowsInside opened = true →
    Reads setting (.form .conditional) (opened + 1) afterQuestion (.ok whenTrue) rest' →
    Closer.colon.skip? rest' = some (colon, afterColon) →
    Reads setting (.form .conditional) (opened + 1) afterColon (.error error) rest'' →
    Reads setting (.form .conditional) opened tokens (.error error) rest''
  | choice {opened tokens condition rest question afterQuestion whenTrue rest' colon afterColon
      whenFalse rest''} :
    Reads setting (.form (.level 0)) opened tokens (.ok condition) rest →
    questionAt? rest = some (question, afterQuestion) →
    setting.limits.allowsInside opened = true →
    Reads setting (.form .conditional) (opened + 1) afterQuestion (.ok whenTrue) rest' →
    Closer.colon.skip? rest' = some (colon, afterColon) →
    Reads setting (.form .conditional) (opened + 1) afterColon (.ok whenFalse) rest'' →
    Reads setting (.form .conditional) opened tokens
      (.ok (.conditional condition whenTrue whenFalse)) rest''
  | leftFails {opened precedence tokens error rest} :
    precedence < BinaryOp.levels →
    Reads setting (.form (.level (precedence + 1))) opened tokens (.error error) rest →
    Reads setting (.form (.level precedence)) opened tokens (.error error) rest
  | chained {opened precedence tokens left rest result rest'} :
    precedence < BinaryOp.levels →
    Reads setting (.form (.level (precedence + 1))) opened tokens (.ok left) rest →
    Reads setting (.chain precedence left left.height) opened rest result rest' →
    Reads setting (.form (.level precedence)) opened tokens result rest'
  | operand {opened precedence tokens result rest} :
    ¬ precedence < BinaryOp.levels →
    Reads setting (.form .unary) opened tokens result rest →
    Reads setting (.form (.level precedence)) opened tokens result rest
  | chainEnds {opened precedence left height tokens} :
    operatorAt? precedence tokens = none →
    Reads setting (.chain precedence left height) opened tokens (.ok left) tokens
  | rightFails {opened precedence left height tokens op offset afterOperator error rest} :
    operatorAt? precedence tokens = some (op, offset, afterOperator) →
    Reads setting (.form (.level (precedence + 1))) opened afterOperator (.error error) rest →
    Reads setting (.chain precedence left height) opened tokens (.error error) rest
  | tooHigh {opened precedence left height tokens op offset afterOperator right rest} :
    operatorAt? precedence tokens = some (op, offset, afterOperator) →
    Reads setting (.form (.level (precedence + 1))) opened afterOperator (.ok right) rest →
    setting.limits.allowsHeight (max height right.height + 1) = false →
    Reads setting (.chain precedence left height) opened tokens (.error (.tooDeep offset)) rest
  | chainGoesOn {opened precedence left height tokens op offset afterOperator right rest result
      rest'} :
    operatorAt? precedence tokens = some (op, offset, afterOperator) →
    Reads setting (.form (.level (precedence + 1))) opened afterOperator (.ok right) rest →
    setting.limits.allowsHeight (max height right.height + 1) = true →
    Reads setting (.chain precedence (.binary op left right offset) (max height right.height + 1))
      opened rest result rest' →
    Reads setting (.chain precedence left height) opened tokens result rest'
  | noPrefix {opened tokens result rest} :
    (∀ token ∈ tokens.head?, UnaryOp.ofKind? token.kind = none) →
    Reads setting (.form .primary) opened tokens result rest →
    Reads setting (.form .unary) opened tokens result rest
  | prefixTooDeep {opened token tokens op} :
    UnaryOp.ofKind? token.kind = some op →
    setting.limits.allowsInside opened = false →
    Reads setting (.form .unary) opened (token :: tokens) (.error (.tooDeep token.offset))
      (token :: tokens)
  | prefixFails {opened token tokens op error rest} :
    UnaryOp.ofKind? token.kind = some op →
    setting.limits.allowsInside opened = true →
    Reads setting (.form .unary) (opened + 1) tokens (.error error) rest →
    Reads setting (.form .unary) opened (token :: tokens) (.error error) rest
  | prefixOp {opened token tokens op operand rest} :
    UnaryOp.ofKind? token.kind = some op →
    setting.limits.allowsInside opened = true →
    Reads setting (.form .unary) (opened + 1) tokens (.ok operand) rest →
    Reads setting (.form .unary) opened (token :: tokens) (.ok (.unary op operand token.offset)) rest
  | endOfInput {opened} :
    Reads setting (.form .primary) opened []
      (.error (.unexpectedToken TokenKind.endOfInput.describe setting.stop)) []
  | number {opened token tokens value} :
    token.kind = .number →
    Number.ofNumeral? token.text.toList = some value →
    Reads setting (.form .primary) opened (token :: tokens) (.ok (.number value token.offset)) tokens
  | invalidNumber {opened token tokens} :
    token.kind = .number →
    Number.ofNumeral? token.text.toList = none →
    Reads setting (.form .primary) opened (token :: tokens) (.error (.invalidNumber token.offset)) tokens
  | text {opened token tokens} :
    token.kind = .string →
    Reads setting (.form .primary) opened (token :: tokens)
      (.ok (.text (token.contents?.getD "") token.offset)) tokens
  | identifier {opened token tokens} :
    token.kind = .identifier →
    Reads setting (.form .primary) opened (token :: tokens)
      (.ok (.identifier token.text token.offset)) tokens
  | parenTooDeep {opened token tokens} :
    token.kind = .leftParen →
    setting.limits.allowsInside opened = false →
    Reads setting (.form .primary) opened (token :: tokens) (.error (.tooDeep token.offset))
      (token :: tokens)
  | innerFails {opened token tokens error rest} :
    token.kind = .leftParen →
    setting.limits.allowsInside opened = true →
    Reads setting (.form .conditional) (opened + 1) tokens (.error error) rest →
    Reads setting (.form .primary) opened (token :: tokens) (.error error) rest
  | parenMissing {opened token tokens inner rest} :
    token.kind = .leftParen →
    setting.limits.allowsInside opened = true →
    Reads setting (.form .conditional) (opened + 1) tokens (.ok inner) rest →
    Closer.rightParen.skip? rest = none →
    Reads setting (.form .primary) opened (token :: tokens)
      (.error (.expected .rightParen (setting.offset rest))) rest
  | parentheses {opened token tokens inner rest paren afterParen} :
    token.kind = .leftParen →
    setting.limits.allowsInside opened = true →
    Reads setting (.form .conditional) (opened + 1) tokens (.ok inner) rest →
    Closer.rightParen.skip? rest = some (paren, afterParen) →
    Reads setting (.form .primary) opened (token :: tokens) (.ok inner) afterParen
  | unexpected {opened token tokens} :
    token.kind ≠ .number → token.kind ≠ .string → token.kind ≠ .identifier →
    token.kind ≠ .leftParen →
    Reads setting (.form .primary) opened (token :: tokens)
      (.error (.unexpectedToken token.displayText token.offset)) (token :: tokens)

variable {setting : Setting} {task : Task} {opened : Nat} {tokens rest : List Token}
  {result : Except ParseError Expr}

/-- A course ends with the answer of the function that reads. -/
theorem Reads.answer_eq (h : Reads setting task opened tokens result rest) :
    answer setting opened tokens task = (result, rest) := by
  induction h with
  | conditionFails _ ih =>
    rw [answer, conditional, Outcome.eq_failed ih, Outcome.answer_failed]
  | plain _ hquestion ih =>
    obtain ⟨shorter, hlevel⟩ := Outcome.eq_done ih
    rw [answer, conditional, hlevel]
    dsimp only
    split <;> simp_all
  | questionTooDeep _ hquestion hrefused ih =>
    obtain ⟨shorter, hlevel⟩ := Outcome.eq_done ih
    rw [answer, conditional, hlevel]
    dsimp only
    split <;> simp_all
  | whenTrueFails _ hquestion hallowed _ ih ihTrue =>
    obtain ⟨shorter, hlevel⟩ := Outcome.eq_done ih
    have htrue := Outcome.eq_failed ihTrue
    rw [answer, conditional, hlevel]
    grind [Outcome.answer_failed]
  | colonMissing _ hquestion hallowed _ hcolon ih ihTrue =>
    obtain ⟨shorter, hlevel⟩ := Outcome.eq_done ih
    obtain ⟨shorterTrue, htrue⟩ := Outcome.eq_done ihTrue
    rw [answer, conditional, hlevel]
    grind [Outcome.answer_failed]
  | whenFalseFails _ hquestion hallowed _ hcolon _ ih ihTrue ihFalse =>
    obtain ⟨shorter, hlevel⟩ := Outcome.eq_done ih
    obtain ⟨shorterTrue, htrue⟩ := Outcome.eq_done ihTrue
    have hfalse := Outcome.eq_failed ihFalse
    rw [answer, conditional, hlevel]
    grind [Outcome.answer_failed]
  | choice _ hquestion hallowed _ hcolon _ ih ihTrue ihFalse =>
    obtain ⟨shorter, hlevel⟩ := Outcome.eq_done ih
    obtain ⟨shorterTrue, htrue⟩ := Outcome.eq_done ihTrue
    obtain ⟨shorterFalse, hfalse⟩ := Outcome.eq_done ihFalse
    rw [answer, conditional, hlevel]
    grind [Outcome.answer_done]
  | leftFails hlevels _ ih =>
    rw [answer, level, if_pos hlevels, Outcome.eq_failed ih, Outcome.answer_failed]
  | chained hlevels _ _ ih ihChain =>
    obtain ⟨shorter, hlevel⟩ := Outcome.eq_done ih
    rw [answer, level, if_pos hlevels, hlevel]
    exact (Outcome.answer_widen _ _).trans ihChain
  | operand hlevels _ ih =>
    rw [answer, level, if_neg hlevels]
    exact ih
  | chainEnds hoperator =>
    rw [answer, extend]
    split <;> simp_all
  | rightFails hoperator _ ih =>
    have hlevel := Outcome.eq_failed ih
    rw [answer, extend]
    grind [Outcome.answer_failed]
  | tooHigh hoperator _ hrefused ih =>
    obtain ⟨shorter, hlevel⟩ := Outcome.eq_done ih
    rw [answer, extend]
    grind [Outcome.answer_failed]
  | chainGoesOn hoperator _ hallowed _ ih ihChain =>
    obtain ⟨shorter, hlevel⟩ := Outcome.eq_done ih
    rw [answer, extend]
    grind [Outcome.answer_widen, answer]
  | noPrefix hprefix _ ih =>
    rw [answer, unary.eq_def]
    grind [answer]
  | prefixTooDeep hprefix hrefused =>
    rw [answer, unary]
    split <;> simp_all
  | prefixFails hprefix hallowed _ ih =>
    have hunary := Outcome.eq_failed ih
    rw [answer, unary]
    split <;> simp_all
  | prefixOp hprefix hallowed _ ih =>
    obtain ⟨shorter, hunary⟩ := Outcome.eq_done ih
    rw [answer, unary]
    split <;> simp_all
  | endOfInput =>
    rw [answer, primary, Outcome.answer_failed]
  | number hkind hvalue =>
    rw [answer, primary]
    split <;> simp_all
  | invalidNumber hkind hvalue =>
    rw [answer, primary]
    split <;> simp_all
  | text hkind =>
    rw [answer, primary]
    split <;> simp_all
  | identifier hkind =>
    rw [answer, primary]
    split <;> simp_all
  | parenTooDeep hkind hrefused =>
    rw [answer, primary]
    split <;> simp_all
  | innerFails hkind hallowed _ ih =>
    have hinner := Outcome.eq_failed ih
    rw [answer, primary]
    split <;> simp_all
  | parenMissing hkind hallowed _ hparen ih =>
    obtain ⟨shorter, hinner⟩ := Outcome.eq_done ih
    rw [answer, primary]
    grind [Outcome.answer_failed]
  | parentheses hkind hallowed _ hparen ih =>
    obtain ⟨shorter, hinner⟩ := Outcome.eq_done ih
    rw [answer, primary]
    grind [Outcome.answer_done]
  | unexpected hnumber hstring hidentifier hparen =>
    rw [answer, primary]
    split <;> simp_all

/-- A course that leads to some answer leads to that of the function. -/
theorem Reads.of_reads (h : Reads setting task opened tokens result rest) :
    Reads setting task opened tokens (answer setting opened tokens task).1
      (answer setting opened tokens task).2 := by
  rw [h.answer_eq]
  exact h

/-- The answers of the five functions are ends of courses, by the recursion that they share. -/
private theorem reads_functions (setting : Setting) :
    (∀ opened tokens, Reads setting (.form .conditional) opened tokens
      (conditional setting opened tokens).answer.1 (conditional setting opened tokens).answer.2) ∧
    (∀ opened precedence tokens, Reads setting (.form (.level precedence)) opened tokens
      (level setting opened precedence tokens).answer.1
      (level setting opened precedence tokens).answer.2) ∧
    (∀ opened tokens, Reads setting (.form .unary) opened tokens
      (unary setting opened tokens).answer.1 (unary setting opened tokens).answer.2) ∧
    (∀ opened tokens, Reads setting (.form .primary) opened tokens
      (primary setting opened tokens).answer.1 (primary setting opened tokens).answer.2) ∧
    (∀ opened precedence left height tokens,
      Reads setting (.chain precedence left height) opened tokens
        (extend setting opened precedence left height tokens).answer.1
        (extend setting opened precedence left height tokens).answer.2) := by
  apply conditional.mutual_induct setting
  case case1 =>
    intro opened tokens error rest hlevel ih
    rw [hlevel] at ih
    exact (Reads.conditionFails ih).of_reads
  case case2 =>
    intro opened tokens condition rest shorter hlevel hquestion ih
    rw [hlevel] at ih
    exact (Reads.plain ih hquestion).of_reads
  case case3 =>
    intro opened tokens condition rest shorter hlevel question afterQuestion hquestion _ hallowed
      error rest' htrue ih ihTrue
    rw [hlevel] at ih
    rw [htrue] at ihTrue
    exact (Reads.whenTrueFails ih hquestion hallowed ihTrue).of_reads
  case case4 =>
    intro opened tokens condition rest shorter hlevel question afterQuestion hquestion _ hallowed
      whenTrue rest' shorterTrue htrue hcolon ih ihTrue
    rw [hlevel] at ih
    rw [htrue] at ihTrue
    exact (Reads.colonMissing ih hquestion hallowed ihTrue hcolon).of_reads
  case case5 =>
    intro opened tokens condition rest shorter hlevel question afterQuestion hquestion _ hallowed
      whenTrue rest' shorterTrue htrue colon afterColon hcolon _ _ error rest'' hfalse ih ihTrue
      ihFalse
    rw [hlevel] at ih
    rw [htrue] at ihTrue
    rw [hfalse] at ihFalse
    exact (Reads.whenFalseFails ih hquestion hallowed ihTrue hcolon ihFalse).of_reads
  case case6 =>
    intro opened tokens condition rest shorter hlevel question afterQuestion hquestion _ hallowed
      whenTrue rest' shorterTrue htrue colon afterColon hcolon _ _ whenFalse rest'' shorterFalse
      hfalse ih ihTrue ihFalse
    rw [hlevel] at ih
    rw [htrue] at ihTrue
    rw [hfalse] at ihFalse
    exact (Reads.choice ih hquestion hallowed ihTrue hcolon ihFalse).of_reads
  case case7 =>
    -- Both branches are opened inside the same number of constructs, so the second is never refused.
    intros
    contradiction
  case case8 =>
    intro opened tokens condition rest shorter hlevel question afterQuestion hquestion _ hrefused ih
    rw [hlevel] at ih
    exact (Reads.questionTooDeep ih hquestion (Bool.eq_false_iff.mpr hrefused)).of_reads
  case case9 =>
    intro opened precedence tokens hlevels error rest hlevel ih
    rw [hlevel] at ih
    exact (Reads.leftFails hlevels ih).of_reads
  case case10 =>
    intro opened precedence tokens hlevels left rest shorter hlevel ih ihChain
    rw [hlevel] at ih
    exact (Reads.chained hlevels ih ihChain).of_reads
  case case11 =>
    intro opened precedence tokens hlevels ih
    exact (Reads.operand hlevels ih).of_reads
  case case12 =>
    intro opened ih
    exact (Reads.noPrefix (by simp) ih).of_reads
  case case13 =>
    intro opened token tokens hprefix ih
    exact (Reads.noPrefix (by simpa using hprefix) ih).of_reads
  case case14 =>
    intro opened token tokens op hprefix hallowed error rest hunary ih
    rw [hunary] at ih
    exact (Reads.prefixFails hprefix hallowed ih).of_reads
  case case15 =>
    intro opened token tokens op hprefix hallowed operand rest shorter hunary ih
    rw [hunary] at ih
    exact (Reads.prefixOp hprefix hallowed ih).of_reads
  case case16 =>
    intro opened token tokens op hprefix hrefused
    exact (Reads.prefixTooDeep hprefix (Bool.eq_false_iff.mpr hrefused)).of_reads
  case case17 =>
    intro opened
    exact Reads.endOfInput.of_reads
  case case18 =>
    intro opened token tokens _ hkind value hvalue
    exact (Reads.number hkind hvalue).of_reads
  case case19 =>
    intro opened token tokens _ hkind hvalue
    exact (Reads.invalidNumber hkind hvalue).of_reads
  case case20 =>
    intro opened token tokens _ hkind
    exact (Reads.text hkind).of_reads
  case case21 =>
    intro opened token tokens _ hkind
    exact (Reads.identifier hkind).of_reads
  case case22 =>
    intro opened token tokens _ hkind hallowed error rest hinner ih
    rw [hinner] at ih
    exact (Reads.innerFails hkind hallowed ih).of_reads
  case case23 =>
    intro opened token tokens _ hkind hallowed inner rest shorter hinner hparen ih
    rw [hinner] at ih
    exact (Reads.parenMissing hkind hallowed ih hparen).of_reads
  case case24 =>
    intro opened token tokens _ hkind hallowed inner rest shorter hinner paren afterParen hparen _ ih
    rw [hinner] at ih
    exact (Reads.parentheses hkind hallowed ih hparen).of_reads
  case case25 =>
    intro opened token tokens _ hkind hrefused
    exact (Reads.parenTooDeep hkind (Bool.eq_false_iff.mpr hrefused)).of_reads
  case case26 =>
    intro opened token tokens _ hnumber hstring hidentifier hparen
    exact (Reads.unexpected hnumber hstring hidentifier hparen).of_reads
  case case27 =>
    intro opened precedence left height tokens hoperator
    exact (Reads.chainEnds hoperator).of_reads
  case case28 =>
    intro opened precedence left height tokens op offset afterOperator hoperator _ error rest hlevel
      ih
    rw [hlevel] at ih
    exact (Reads.rightFails hoperator ih).of_reads
  case case29 =>
    intro opened precedence left height tokens op offset afterOperator hoperator _ right rest shorter
      hlevel taller hallowed ih ihChain
    rw [hlevel] at ih
    exact (Reads.chainGoesOn hoperator ih hallowed ihChain).of_reads
  case case30 =>
    intro opened precedence left height tokens op offset afterOperator hoperator _ right rest shorter
      hlevel taller hrefused ih
    rw [hlevel] at ih
    exact (Reads.tooHigh hoperator ih (Bool.eq_false_iff.mpr hrefused)).of_reads

/-- An answer is what a course leads to, and every course leads to the answer. -/
theorem answer_eq_iff_reads :
    answer setting opened tokens task = (result, rest) ↔
      Reads setting task opened tokens result rest := by
  refine ⟨fun h => ?_, Reads.answer_eq⟩
  obtain ⟨hconditional, hlevel, hunary, hprimary, hchain⟩ := reads_functions setting
  have hanswer : Reads setting task opened tokens (answer setting opened tokens task).1
      (answer setting opened tokens task).2 := by
    match task with
    | .form .conditional => exact hconditional opened tokens
    | .form (.level precedence) => exact hlevel opened precedence tokens
    | .form .unary => exact hunary opened tokens
    | .form .primary => exact hprimary opened tokens
    | .chain precedence left height => exact hchain opened precedence left height tokens
  rwa [h] at hanswer

end Parse

end ScalarExpr
