import ScalarExpr.Proofs.Parsing.Accepts
import ScalarExpr.Proofs.Token.Spelling

/-!
# Reading with a cursor

A parser that is used again keeps its tokens, an index into them and a count of the constructs that
it has open. Its readers look at one token at a time and never at the tokens that are left as a
whole. They are written here as steps on that state, in the order in which each of them looks, moves,
opens and fails. A step that looks behind the last token has no result at all, and neither has a
reader that calls others more than a given number deep.

What a reader does is then said by `Follows`: from a list of tokens ahead of the cursor, with the end
of input behind them and anything behind that, it comes to a result and to what is ahead afterwards.
It does so wherever it may call as deep as `Cursor.callsWithin` says, a number that depends on how many
tokens are ahead: a part is read of fewer tokens, or of as many by a reader of a tighter level.
-/

namespace ScalarExpr

/-- Where a parser stands in its tokens. -/
structure Cursor where
  /-- The index of the token to be looked at. -/
  index : Nat
  /-- The number of constructs that are open. -/
  opened : Nat
  /-- The indices at which tokens have been looked at, the last one first. No step depends on them. -/
  visited : List Nat
  deriving DecidableEq, Repr

/-- Steps of a parser: they may move the cursor, and end with a value or an error, or not at all. -/
abbrev Reader (α : Type) := ExceptT ParseError (StateT Cursor Option) α

namespace Cursor

/-- From each place where the cursor has looked it has moved forward to the next, or stayed. -/
def Ordered (cursor : Cursor) : Prop := (cursor.index :: cursor.visited).Pairwise (· ≥ ·)

/-- A parser before its first call. -/
def start : Cursor := ⟨0, 0, []⟩

section Steps

variable (limits : Limits) (tokens : List Token)

/-- Looks at the token at the cursor. -/
def current : Reader Token := do
  let cursor ← get
  set { cursor with visited := cursor.index :: cursor.visited }
  liftM tokens[cursor.index]?

/-- Takes the token at the cursor. The end of input is taken without moving. -/
def advance : Reader Token := do
  let token ← current tokens
  if token.kind ≠ .endOfInput then
    modify fun cursor => { cursor with index := cursor.index + 1 }
  return token

/-- Takes a closing token. -/
def expect (closer : Closer) : Reader Token := do
  if (← current tokens).kind = closer.kind then advance tokens
  else throw (.expected closer (← current tokens).offset)

/-- Opens a construct, if one more may be open. -/
def enter (offset : Nat) : Reader Unit := do
  let cursor ← get
  if limits.allowsInside cursor.opened then
    set { cursor with opened := cursor.opened + 1 }
  else throw (.tooDeep offset)

/-- Reads inside one more open construct, which is closed whatever the reading comes to. -/
def nested {α : Type} (offset : Nat) (read : Reader α) : Reader α := do
  enter limits offset
  (do
    let answer ← read.run
    modify fun cursor => { cursor with opened := cursor.opened - 1 }
    return answer : StateT Cursor Option (Except ParseError α))

/-- Reads what there is to read, where `self` does so for each of the parts. -/
def step (self : Task → Reader Expr) : Task → Reader Expr
  | .form .conditional => do
    let condition ← self (.form (.level 0))
    if (← current tokens).kind ≠ .question then return condition
    let question ← advance tokens
    let whenTrue ← nested limits question.offset (self (.form .conditional))
    let colon ← expect tokens .colon
    let whenFalse ← nested limits colon.offset (self (.form .conditional))
    return .conditional condition whenTrue whenFalse
  | .form (.level precedence) => do
    if precedence < BinaryOp.levels then
      let left ← self (.form (.level (precedence + 1)))
      self (.chain precedence left left.height)
    else self (.form .unary)
  | .chain precedence left height => do
    match (BinaryOp.ofKind? (← current tokens).kind).filter (·.precedence = precedence) with
    | none => return left
    | some op =>
      let operator ← advance tokens
      let right ← self (.form (.level (precedence + 1)))
      let taller := max height right.height + 1
      if limits.allowsHeight taller then
        self (.chain precedence (.binary op left right operator.offset) taller)
      else throw (.tooDeep operator.offset)
  | .form .unary => do
    match UnaryOp.ofKind? (← current tokens).kind with
    | none => self (.form .primary)
    | some op =>
      let token ← current tokens
      let operand ← nested limits token.offset do
        let _ ← advance tokens
        self (.form .unary)
      return .unary op operand token.offset
  | .form .primary => do
    match (← current tokens).kind with
    | .number =>
      let token ← advance tokens
      match Number.ofNumeral? token.text.toList with
      | some value => return .number value token.offset
      | none => throw (.invalidNumber token.offset)
    | .string =>
      let token ← advance tokens
      return .text (token.contents?.getD "") token.offset
    | .identifier =>
      let token ← advance tokens
      return .identifier token.text token.offset
    | .leftParen =>
      let token ← current tokens
      nested limits token.offset do
        let _ ← advance tokens
        let inner ← self (.form .conditional)
        let _ ← expect tokens .rightParen
        return inner
    | _ =>
      let token ← current tokens
      throw (.unexpectedToken token.displayText token.offset)

/-- Reads what there is to read, with calls up to this many deep. -/
def read : Nat → Task → Reader Expr
  | 0, _ => liftM (none : Option Expr)
  | depth + 1, task => step limits tokens (read depth) task

end Steps

/-- How deep the calls go at most that are made from a reader of this with so many tokens ahead. -/
def callsWithin (length : Nat) : Task → Nat
  | .form .conditional => 16 * length + 9
  | .form (.level precedence) => 16 * length + 2 + (BinaryOp.levels - precedence)
  | .form .unary => 16 * length + 1
  | .form .primary => 16 * length
  | .chain .. => 16 * length

/-- Reads one expression that has to take all tokens, with calls up to this many deep. -/
def parseWithin (limits : Limits) (tokens : List Token) (depth : Nat) : Reader Expr := do
  let e ← read limits tokens depth (.form .conditional)
  if (← current tokens).kind ≠ .endOfInput then
    let token ← current tokens
    throw (.trailingToken token.text token.offset)
  return e

/-- Reads one expression that has to take all tokens. -/
def parse (limits : Limits) (tokens : List Token) : Reader Expr :=
  parseWithin limits tokens (callsWithin tokens.length (.form .conditional) + 1)

/-- One more construct is opened where it may be, and refused where it may not. -/
theorem run_enter (limits : Limits) (offset : Nat) (cursor : Cursor) :
    (enter limits offset).run.run cursor =
      if limits.allowsInside cursor.opened then
        some (.ok (), { cursor with opened := cursor.opened + 1 })
      else some (.error (.tooDeep offset), cursor) := by
  show (if limits.allowsInside cursor.opened then _ else _ : Reader Unit).run.run cursor = _
  split <;> rfl

end Cursor

/-- The first token of those ahead, the end of input if there are none. -/
def firstAhead (stop : Token) (ahead : List Token) : Token := ahead.head?.getD stop

@[simp] theorem firstAhead_nil (stop : Token) : firstAhead stop [] = stop := rfl

@[simp] theorem firstAhead_cons (stop token : Token) (ahead : List Token) :
    firstAhead stop (token :: ahead) = token := rfl

/-- With this many constructs open, some tokens ahead and then the end of input, a reader comes to a
result and leaves the rest ahead. It closes what it opens, only moves forward, and does all this
whatever comes behind the end of input, if it may call at least `need` deep. -/
def Follows {α : Type} (stop : Token) (opened need : Nat) (reader : List Token → Nat → Reader α)
    (ahead : List Token) (result : Except ParseError α) (rest : List Token) : Prop :=
  ∀ cursor : Cursor, cursor.opened = opened → ∃ next : Cursor, next.opened = opened ∧
    cursor.index ≤ next.index ∧ (cursor.Ordered → next.Ordered) ∧
    ∀ tokens later depth, need ≤ depth → tokens.drop cursor.index = ahead ++ stop :: later →
      tokens.drop next.index = rest ++ stop :: later ∧
        (reader tokens depth).run.run cursor = some (result, next)

namespace Follows

variable {α β : Type} {stop : Token} {opened need : Nat} {ahead between rest : List Token}
  {limits : Limits} {reader : List Token → Nat → Reader α}

/-- A reader may call deeper than it needs. -/
theorem mono {need' : Nat} {result : Except ParseError α}
    (h : Follows stop opened need reader ahead result rest) (hle : need ≤ need') :
    Follows stop opened need' reader ahead result rest := by
  intro cursor hopened
  obtain ⟨next, hnext, hle', hordered, hrun⟩ := h cursor hopened
  exact ⟨next, hnext, hle', hordered, fun tokens later depth hneed =>
    hrun tokens later depth (Nat.le_trans hle hneed)⟩

/-- A value is a result. -/
protected theorem pure (a : α) : Follows stop opened need (fun _ _ => pure a) ahead (.ok a) ahead :=
  fun cursor hopened => ⟨cursor, hopened, Nat.le_refl _, id, fun _ _ _ _ hahead => ⟨hahead, rfl⟩⟩

/-- An error is a result. -/
protected theorem throw (error : ParseError) :
    Follows stop opened need (fun _ _ => (throw error : Reader α)) ahead (.error error) ahead :=
  fun cursor hopened => ⟨cursor, hopened, Nat.le_refl _, id, fun _ _ _ _ hahead => ⟨hahead, rfl⟩⟩

/-- After a value, reading goes on from where it has come to. -/
protected theorem bind {next : List Token → Nat → α → Reader β} {a : α}
    {result : Except ParseError β} (h : Follows stop opened need reader ahead (.ok a) between)
    (hnext : Follows stop opened need (fun tokens depth => next tokens depth a) between result rest) :
    Follows stop opened need (fun tokens depth => reader tokens depth >>= next tokens depth) ahead
      result rest := by
  intro cursor hopened
  obtain ⟨middle, hmiddle, hle, hordered, hrun⟩ := h cursor hopened
  obtain ⟨last, hlast, hle', hordered', hrun'⟩ := hnext middle hmiddle
  refine ⟨last, hlast, Nat.le_trans hle hle', hordered' ∘ hordered,
    fun tokens later depth hneed hahead => ?_⟩
  obtain ⟨hbetween, heq⟩ := hrun tokens later depth hneed hahead
  obtain ⟨hrest, heq'⟩ := hrun' tokens later depth hneed hbetween
  refine ⟨hrest, ?_⟩
  rw [ExceptT.run_bind, StateT.run_bind, heq]
  exact heq'

/-- After an error, nothing is read. -/
protected theorem bind_error {next : List Token → Nat → α → Reader β} {error : ParseError}
    (h : Follows stop opened need reader ahead (.error error) rest) :
    Follows stop opened need (fun tokens depth => reader tokens depth >>= next tokens depth) ahead
      (.error error) rest := by
  intro cursor hopened
  obtain ⟨last, hlast, hle, hordered, hrun⟩ := h cursor hopened
  refine ⟨last, hlast, hle, hordered, fun tokens later depth hneed hahead => ?_⟩
  obtain ⟨hrest, heq⟩ := hrun tokens later depth hneed hahead
  refine ⟨hrest, ?_⟩
  rw [ExceptT.run_bind, StateT.run_bind, heq]
  rfl

/-- A test that holds is decided. -/
protected theorem ite_pos {p : Prop} [Decidable p] {other : List Token → Nat → Reader α}
    {result : Except ParseError α} (hp : p)
    (h : Follows stop opened need reader ahead result rest) :
    Follows stop opened need
      (fun tokens depth => if p then reader tokens depth else other tokens depth) ahead result
      rest := by
  simpa only [if_pos hp] using h

/-- A test that fails is decided. -/
protected theorem ite_neg {p : Prop} [Decidable p] {other : List Token → Nat → Reader α}
    {result : Except ParseError α} (hp : ¬ p)
    (h : Follows stop opened need reader ahead result rest) :
    Follows stop opened need
      (fun tokens depth => if p then other tokens depth else reader tokens depth) ahead result
      rest := by
  simpa only [if_neg hp] using h

/-- The first token ahead is looked at. -/
theorem current :
    Follows stop opened need (fun tokens _ => Cursor.current tokens) ahead
      (.ok (firstAhead stop ahead)) ahead := by
  intro cursor hopened
  refine ⟨{ cursor with visited := cursor.index :: cursor.visited }, hopened, Nat.le_refl _,
    fun hordered => ?_, fun tokens later _ _ hahead => ⟨hahead, ?_⟩⟩
  · refine List.pairwise_cons.mpr ⟨fun index hindex => ?_, hordered⟩
    rcases List.mem_cons.mp hindex with rfl | hvisited
    · exact Nat.le_refl _
    · exact List.rel_of_pairwise_cons hordered hvisited
  · have hfirst : tokens[cursor.index]? = some (firstAhead stop ahead) := by
      rw [← List.head?_drop, hahead]
      cases ahead <;> rfl
    show (liftM tokens[cursor.index]? : Reader Token).run.run _ = _
    rw [hfirst]
    rfl

/-- Moving forward leaves one token less ahead. -/
theorem move {token : Token} :
    Follows stop opened need
      (fun _ _ => (modify fun cursor => { cursor with index := cursor.index + 1 } : Reader PUnit))
      (token :: rest) (.ok ⟨⟩) rest := by
  intro cursor hopened
  refine ⟨{ cursor with index := cursor.index + 1 }, hopened, Nat.le_succ _, fun hordered => ?_,
    fun tokens later _ _ hahead => ⟨?_, rfl⟩⟩
  · obtain ⟨hall, hvisited⟩ := List.pairwise_cons.mp hordered
    exact List.pairwise_cons.mpr
      ⟨fun index hindex => Nat.le_succ_of_le (hall index hindex), hvisited⟩
  · rw [← List.drop_drop, hahead]
    rfl

/-- A token ahead is taken. -/
theorem advance {token : Token} (hkind : token.kind ≠ .endOfInput) :
    Follows stop opened need (fun tokens _ => Cursor.advance tokens) (token :: rest) (.ok token)
      rest :=
  .bind current (.ite_pos hkind (.bind move (.pure token)))

/-- A closing token ahead is taken. -/
theorem expect {closer : Closer} {token : Token} (hkind : token.kind = closer.kind) :
    Follows stop opened need (fun tokens _ => Cursor.expect tokens closer) (token :: rest)
      (.ok token) rest := by
  have hend : token.kind ≠ .endOfInput := by cases closer <;> simp [hkind, Closer.kind]
  exact .bind current (.ite_pos hkind (advance hend))

/-- A closing token that is missing is reported at the first token ahead. -/
theorem expect_missing {closer : Closer} (hkind : (firstAhead stop ahead).kind ≠ closer.kind) :
    Follows stop opened need (fun tokens _ => Cursor.expect tokens closer) ahead
      (.error (.expected closer (firstAhead stop ahead).offset)) ahead :=
  .bind current (.ite_neg hkind (.bind current (.throw _)))

/-- A construct too many is refused before anything of it is read. -/
theorem nested_refused {offset : Nat} (hrefused : limits.allowsInside opened = false) :
    Follows stop opened need
      (fun tokens depth => Cursor.nested limits offset (reader tokens depth)) ahead
      (.error (.tooDeep offset)) ahead := by
  refine .bind_error fun cursor hopened => ⟨cursor, hopened, Nat.le_refl _, id,
    fun tokens later depth _ hahead => ⟨hahead, ?_⟩⟩
  rw [Cursor.run_enter, hopened, hrefused]
  rfl

/-- A construct that may be opened is closed again, also after an error. -/
theorem nested {offset : Nat} {result : Except ParseError α}
    (hallowed : limits.allowsInside opened = true)
    (h : Follows stop (opened + 1) need reader ahead result rest) :
    Follows stop opened need
      (fun tokens depth => Cursor.nested limits offset (reader tokens depth)) ahead result
      rest := by
  intro cursor hopened
  obtain ⟨last, hlast, hle, hordered, hrun⟩ :=
    h { cursor with opened := cursor.opened + 1 } (congrArg (· + 1) hopened)
  refine ⟨{ last with opened := last.opened - 1 }, by simp [hlast], hle, hordered,
    fun tokens later depth hneed hahead => ?_⟩
  obtain ⟨hrest, heq⟩ := hrun tokens later depth hneed hahead
  refine ⟨hrest, ?_⟩
  unfold Cursor.nested
  rw [ExceptT.run_bind, StateT.run_bind, Cursor.run_enter, if_pos (hopened ▸ hallowed)]
  show (StateT.run (reader tokens depth).run _ >>= _) = _
  rw [heq]
  rfl

/-- A reader needs one call more than its step. -/
theorem read {task : Task} {result : Except ParseError Expr}
    (h : Follows stop opened need
      (fun tokens depth => Cursor.step limits tokens (Cursor.read limits tokens depth) task) ahead
      result rest) :
    Follows stop opened (need + 1) (fun tokens depth => Cursor.read limits tokens depth task) ahead
      result rest := by
  intro cursor hopened
  obtain ⟨next, hnext, hle, hordered, hrun⟩ := h cursor hopened
  refine ⟨next, hnext, hle, hordered, fun tokens later depth hneed hahead => ?_⟩
  obtain ⟨depth, rfl⟩ := Nat.exists_eq_add_of_le' (Nat.le_of_add_left_le hneed)
  exact hrun tokens later depth (Nat.le_of_succ_le_succ hneed) hahead

end Follows

namespace Parse

variable {limits : Limits} {stop : Token} {task : Task} {opened need : Nat}
  {tokens rest : List Token} {result : Except ParseError Expr}

section Ahead

/-- The offset of what is ahead is that of the first token ahead. -/
theorem offset_eq_firstAhead (limits : Limits) (stop : Token) (tokens : List Token) :
    (Setting.mk limits stop.offset).offset tokens = (firstAhead stop tokens).offset := by
  cases tokens <;> rfl

/-- Where no question mark is ahead, the cursor is at none. -/
theorem firstAhead_of_questionAt? (hstop : stop.kind = .endOfInput)
    (h : questionAt? tokens = none) : (firstAhead stop tokens).kind ≠ .question := by
  cases tokens with
  | nil => simp [hstop]
  | cons token tokens => exact questionAt?_eq_none_iff.mp h token rfl

/-- Where no closing token is ahead, the cursor is at none. -/
theorem firstAhead_of_skip? {closer : Closer} (hstop : stop.kind = .endOfInput)
    (h : closer.skip? tokens = none) : (firstAhead stop tokens).kind ≠ closer.kind := by
  cases tokens with
  | nil => cases closer <;> simp [hstop, Closer.kind]
  | cons token tokens => simpa [Closer.skip?] using h

/-- Where no operator of a precedence is ahead, the cursor is at none. -/
theorem firstAhead_of_operatorAt? {precedence : Nat} (hstop : stop.kind = .endOfInput)
    (h : operatorAt? precedence tokens = none) :
    (BinaryOp.ofKind? (firstAhead stop tokens).kind).filter (·.precedence = precedence) = none := by
  cases tokens with
  | nil => simp [hstop, BinaryOp.ofKind?]
  | cons token tokens =>
    simpa [Option.filter_eq_none_iff, BinaryOp.ofKind?_eq_some_iff, BinaryOp.precedence_eq_tier]
      using operatorAt?_eq_none_iff.mp h token rfl

/-- Where no prefix operator is ahead, the cursor is at none. -/
theorem firstAhead_of_head? (hstop : stop.kind = .endOfInput)
    (h : ∀ token ∈ tokens.head?, UnaryOp.ofKind? token.kind = none) :
    UnaryOp.ofKind? (firstAhead stop tokens).kind = none := by
  cases tokens with
  | nil => simp [hstop, UnaryOp.ofKind?]
  | cons token tokens => exact h token rfl

end Ahead

section Openings

variable {token : Token} {self : List Token → Nat → Task → Reader Expr}

/-- After a condition and a question mark, the branches are read. -/
theorem follows_branches {condition : Expr} (hkind : token.kind = .question)
    (hcondition : Follows stop opened need (fun list depth => self list depth (.form (.level 0)))
      tokens (.ok condition) (token :: rest)) {rest' : List Token}
    (h : Follows stop opened need (fun list depth => do
      let whenTrue ← Cursor.nested limits token.offset (self list depth (.form .conditional))
      let colon ← Cursor.expect list .colon
      let whenFalse ← Cursor.nested limits colon.offset (self list depth (.form .conditional))
      return .conditional condition whenTrue whenFalse) rest result rest') :
    Follows stop opened need
      (fun list depth => Cursor.step limits list (self list depth) (.form .conditional)) tokens
      result rest' := by
  unfold Cursor.step
  exact hcondition.bind (.bind .current
    (.ite_neg (by simp [hkind]) (.bind (.advance (by simp [hkind])) h)))

/-- After an operator of the chain, its right operand is read. -/
theorem follows_operator {precedence height : Nat} {left : Expr} {op : BinaryOp}
    (hop : token.kind = op.kind) (htier : op.tier = precedence)
    (h : Follows stop opened need (fun list depth => do
      let right ← self list depth (.form (.level (precedence + 1)))
      let taller := max height right.height + 1
      if limits.allowsHeight taller then
        self list depth (.chain precedence (.binary op left right token.offset) taller)
      else throw (.tooDeep token.offset)) tokens result rest) :
    Follows stop opened need
      (fun list depth => Cursor.step limits list (self list depth) (.chain precedence left height))
      (token :: tokens) result rest := by
  have hprecedence : op.precedence = precedence := op.precedence_eq_tier.trans htier
  unfold Cursor.step
  refine .bind .current ?_
  simp only [firstAhead_cons, BinaryOp.ofKind?_eq_some_iff.mpr hop, Option.filter_some, hprecedence,
    decide_true, if_true]
  exact .bind (.advance (BinaryOp.ne_endOfInput hop)) h

/-- At a prefix operator, one more construct is opened around its operand. -/
theorem follows_unary {op : UnaryOp} (hop : UnaryOp.ofKind? token.kind = some op)
    (h : Follows stop opened need (fun list depth => do
      let operand ← Cursor.nested limits token.offset do
        let _ ← Cursor.advance list
        self list depth (.form .unary)
      return .unary op operand token.offset) (token :: tokens) result rest) :
    Follows stop opened need
      (fun list depth => Cursor.step limits list (self list depth) (.form .unary))
      (token :: tokens) result rest := by
  unfold Cursor.step
  refine .bind .current ?_
  simp only [firstAhead_cons, hop]
  exact .bind .current h

/-- At a left parenthesis, one more construct is opened around what is in it. -/
theorem follows_parenthesis (hkind : token.kind = .leftParen)
    (h : Follows stop opened need (fun list depth => Cursor.nested limits token.offset do
      let _ ← Cursor.advance list
      let inner ← self list depth (.form .conditional)
      let _ ← Cursor.expect list .rightParen
      return inner) (token :: tokens) result rest) :
    Follows stop opened need
      (fun list depth => Cursor.step limits list (self list depth) (.form .primary))
      (token :: tokens) result rest := by
  unfold Cursor.step
  refine .bind .current ?_
  simp only [firstAhead_cons, hkind]
  exact .bind .current h

end Openings

/-- A form takes at least one token. -/
theorem Reads.length_lt {setting : Setting} {form : Form} {e : Expr}
    (h : Reads setting (.form form) opened tokens (.ok e) rest) : rest.length < tokens.length := by
  have hanswer := h.answer_eq
  cases form <;> exact (Outcome.eq_done hanswer).1

/-- With fewer tokens ahead, the calls from any reader go less deep. -/
theorem callsWithin_lt_of_lt {length length' : Nat} (h : length' < length) (task task' : Task) :
    Cursor.callsWithin length' task' + 1 ≤ Cursor.callsWithin length task := by
  have hlow : 16 * length ≤ Cursor.callsWithin length task := by
    unfold Cursor.callsWithin
    split <;> omega
  have hhigh : Cursor.callsWithin length' task' ≤ 16 * length' + 9 := by
    unfold Cursor.callsWithin BinaryOp.levels
    split <;> omega
  omega

/-- A level calls less deep than the next looser one. -/
theorem callsWithin_level_succ {precedence length : Nat} (h : precedence < BinaryOp.levels) :
    Cursor.callsWithin length (.form (.level (precedence + 1))) + 1 ≤
      Cursor.callsWithin length (.form (.level precedence)) := by
  simp only [Cursor.callsWithin]
  omega

/-- A unary expression calls less deep than any level. -/
theorem callsWithin_unary (precedence length : Nat) :
    Cursor.callsWithin length (.form .unary) + 1 ≤
      Cursor.callsWithin length (.form (.level precedence)) := by
  simp only [Cursor.callsWithin]
  omega

/-- The steps follow the course of the reading. -/
theorem Reads.follows (hstop : stop.kind = .endOfInput)
    (h : Reads ⟨limits, stop.offset⟩ task opened tokens result rest) :
    Follows stop opened (Cursor.callsWithin tokens.length task + 1)
      (fun list depth => Cursor.read limits list depth task) tokens result rest := by
  -- Parts are read of fewer tokens, or of the same ones by a reader whose calls go less deep.
  induction h with
  | conditionFails _ ih =>
    have hcondition := ih.mono (Nat.le_refl _)
    refine .read ?_
    unfold Cursor.step
    exact hcondition.bind_error
  | plain _ hquestion ih =>
    have hcondition := ih.mono (Nat.le_refl _)
    refine .read ?_
    unfold Cursor.step
    exact hcondition.bind (.bind .current
      (.ite_pos (firstAhead_of_questionAt? hstop hquestion) (.pure _)))
  | questionTooDeep _ hquestion hrefused ih =>
    obtain ⟨question, rfl, hkind, rfl⟩ := questionAt?_eq_some_iff.mp hquestion
    have hcondition := ih.mono (Nat.le_refl _)
    exact .read (follows_branches hkind hcondition (.bind_error (.nested_refused hrefused)))
  | whenTrueFails hbefore hquestion hallowed _ ih ihTrue =>
    obtain ⟨question, rfl, hkind, rfl⟩ := questionAt?_eq_some_iff.mp hquestion
    have hlength := Nat.lt_of_succ_lt hbefore.length_lt
    have hcondition := ih.mono (Nat.le_refl _)
    have htrue := ihTrue.mono (callsWithin_lt_of_lt hlength (.form .conditional) _)
    exact .read (follows_branches hkind hcondition (.bind_error (.nested hallowed htrue)))
  | colonMissing hbefore hquestion hallowed _ hcolon ih ihTrue =>
    obtain ⟨question, rfl, hkind, rfl⟩ := questionAt?_eq_some_iff.mp hquestion
    have hlength := Nat.lt_of_succ_lt hbefore.length_lt
    have hcondition := ih.mono (Nat.le_refl _)
    have htrue := ihTrue.mono (callsWithin_lt_of_lt hlength (.form .conditional) _)
    refine .read (follows_branches hkind hcondition (.bind (.nested hallowed htrue) ?_))
    rw [offset_eq_firstAhead]
    exact .bind_error (.expect_missing (firstAhead_of_skip? hstop hcolon))
  | whenFalseFails hbefore hquestion hallowed hbetween hcolon _ ih ihTrue ihFalse =>
    obtain ⟨question, rfl, hkind, rfl⟩ := questionAt?_eq_some_iff.mp hquestion
    obtain ⟨rfl, hclose⟩ := Closer.skip?_eq_some_iff.mp hcolon
    have hlength := Nat.lt_of_succ_lt hbefore.length_lt
    have hlength' := Nat.lt_trans (Nat.lt_of_succ_lt hbetween.length_lt) hlength
    have hcondition := ih.mono (Nat.le_refl _)
    have htrue := ihTrue.mono (callsWithin_lt_of_lt hlength (.form .conditional) _)
    have hfalse := ihFalse.mono (callsWithin_lt_of_lt hlength' (.form .conditional) _)
    refine .read (follows_branches hkind hcondition (.bind (.nested hallowed htrue) ?_))
    exact .bind (.expect hclose) (.bind_error (.nested hallowed hfalse))
  | choice hbefore hquestion hallowed hbetween hcolon _ ih ihTrue ihFalse =>
    obtain ⟨question, rfl, hkind, rfl⟩ := questionAt?_eq_some_iff.mp hquestion
    obtain ⟨rfl, hclose⟩ := Closer.skip?_eq_some_iff.mp hcolon
    have hlength := Nat.lt_of_succ_lt hbefore.length_lt
    have hlength' := Nat.lt_trans (Nat.lt_of_succ_lt hbetween.length_lt) hlength
    have hcondition := ih.mono (Nat.le_refl _)
    have htrue := ihTrue.mono (callsWithin_lt_of_lt hlength (.form .conditional) _)
    have hfalse := ihFalse.mono (callsWithin_lt_of_lt hlength' (.form .conditional) _)
    refine .read (follows_branches hkind hcondition (.bind (.nested hallowed htrue) ?_))
    exact .bind (.expect hclose) (.bind (.nested hallowed hfalse) (.pure _))
  | leftFails hlevels _ ih =>
    have hleft := ih.mono (callsWithin_level_succ hlevels)
    refine .read ?_
    unfold Cursor.step
    exact .ite_pos hlevels hleft.bind_error
  | @chained _ precedence _ _ _ _ _ hlevels hbefore _ ih ihChain =>
    have hleft := ih.mono (callsWithin_level_succ hlevels)
    have hchain :=
      ihChain.mono (callsWithin_lt_of_lt hbefore.length_lt (.form (.level precedence)) _)
    refine .read ?_
    unfold Cursor.step
    exact .ite_pos hlevels (hleft.bind hchain)
  | @operand _ precedence _ _ _ hlevels _ ih =>
    have hunary := ih.mono (callsWithin_unary precedence _)
    refine .read ?_
    unfold Cursor.step
    exact .ite_neg hlevels hunary
  | chainEnds hoperator =>
    refine .read ?_
    unfold Cursor.step
    refine .bind .current ?_
    simp only [firstAhead_of_operatorAt? hstop hoperator]
    exact .pure _
  | @rightFails opened precedence left height _ op _ _ _ _ hoperator _ ih =>
    obtain ⟨token, rfl, hop, htier, rfl⟩ := operatorAt?_eq_some_iff.mp hoperator
    have hright :=
      ih.mono (callsWithin_lt_of_lt (Nat.lt_succ_self _) (.chain precedence left height) _)
    exact .read (follows_operator hop htier hright.bind_error)
  | @tooHigh opened precedence left height _ op _ _ _ _ hoperator _ hrefused ih =>
    obtain ⟨token, rfl, hop, htier, rfl⟩ := operatorAt?_eq_some_iff.mp hoperator
    have hright :=
      ih.mono (callsWithin_lt_of_lt (Nat.lt_succ_self _) (.chain precedence left height) _)
    refine .read (follows_operator hop htier (hright.bind ?_))
    exact .ite_neg (by simpa using hrefused) (.throw _)
  | @chainGoesOn opened precedence left height _ op _ _ _ _ _ _ hoperator hbefore hallowed _ ih
      ihChain =>
    obtain ⟨token, rfl, hop, htier, rfl⟩ := operatorAt?_eq_some_iff.mp hoperator
    have hlength := Nat.lt_succ_of_lt hbefore.length_lt
    have hright :=
      ih.mono (callsWithin_lt_of_lt (Nat.lt_succ_self _) (.chain precedence left height) _)
    have hchain := ihChain.mono (callsWithin_lt_of_lt hlength (.chain precedence left height) _)
    exact .read (follows_operator hop htier (hright.bind (.ite_pos hallowed hchain)))
  | noPrefix hprefix _ ih =>
    have hprimary := ih.mono (Nat.le_refl _)
    refine .read ?_
    unfold Cursor.step
    refine .bind .current ?_
    simp only [firstAhead_of_head? hstop hprefix]
    exact hprimary
  | prefixTooDeep hop hrefused =>
    exact .read (follows_unary hop (.bind_error (.nested_refused hrefused)))
  | prefixFails hop hallowed _ ih =>
    have hend := UnaryOp.ne_endOfInput (UnaryOp.ofKind?_eq_some_iff.mp hop)
    have hunary := ih.mono (callsWithin_lt_of_lt (Nat.lt_succ_self _) (.form .unary) _)
    exact .read (follows_unary hop (.bind_error (.nested hallowed (.bind (.advance hend) hunary))))
  | prefixOp hop hallowed _ ih =>
    have hend := UnaryOp.ne_endOfInput (UnaryOp.ofKind?_eq_some_iff.mp hop)
    have hunary := ih.mono (callsWithin_lt_of_lt (Nat.lt_succ_self _) (.form .unary) _)
    exact .read (follows_unary hop
      (.bind (.nested hallowed (.bind (.advance hend) hunary)) (.pure _)))
  | endOfInput =>
    have htext : stop.displayText = TokenKind.endOfInput.describe := by
      rw [Token.displayText, if_pos hstop]
      rfl
    refine .read ?_
    unfold Cursor.step
    refine .bind .current ?_
    simp only [firstAhead_nil, hstop]
    rw [← htext]
    exact .bind .current (.throw _)
  | number hkind hvalue =>
    refine .read ?_
    unfold Cursor.step
    refine .bind .current ?_
    simp only [firstAhead_cons, hkind]
    refine .bind (.advance (by simp [hkind])) ?_
    simp only [hvalue]
    exact .pure _
  | invalidNumber hkind hvalue =>
    refine .read ?_
    unfold Cursor.step
    refine .bind .current ?_
    simp only [firstAhead_cons, hkind]
    refine .bind (.advance (by simp [hkind])) ?_
    simp only [hvalue]
    exact .throw _
  | text hkind =>
    refine .read ?_
    unfold Cursor.step
    refine .bind .current ?_
    simp only [firstAhead_cons, hkind]
    exact .bind (.advance (by simp [hkind])) (.pure _)
  | identifier hkind =>
    refine .read ?_
    unfold Cursor.step
    refine .bind .current ?_
    simp only [firstAhead_cons, hkind]
    exact .bind (.advance (by simp [hkind])) (.pure _)
  | parenTooDeep hkind hrefused =>
    exact .read (follows_parenthesis hkind (.nested_refused hrefused))
  | innerFails hkind hallowed _ ih =>
    have hinner := ih.mono (callsWithin_lt_of_lt (Nat.lt_succ_self _) (.form .primary) _)
    refine .read (follows_parenthesis hkind (.nested hallowed ?_))
    exact .bind (.advance (by simp [hkind])) hinner.bind_error
  | parenMissing hkind hallowed _ hparen ih =>
    have hinner := ih.mono (callsWithin_lt_of_lt (Nat.lt_succ_self _) (.form .primary) _)
    refine .read (follows_parenthesis hkind (.nested hallowed ?_))
    refine .bind (.advance (by simp [hkind])) (hinner.bind ?_)
    rw [offset_eq_firstAhead]
    exact .bind_error (.expect_missing (firstAhead_of_skip? hstop hparen))
  | parentheses hkind hallowed _ hparen ih =>
    obtain ⟨rfl, hclose⟩ := Closer.skip?_eq_some_iff.mp hparen
    have hinner := ih.mono (callsWithin_lt_of_lt (Nat.lt_succ_self _) (.form .primary) _)
    refine .read (follows_parenthesis hkind (.nested hallowed ?_))
    exact .bind (.advance (by simp [hkind])) (hinner.bind (.bind (.expect hclose) (.pure _)))
  | unexpected hnumber hstring hidentifier hparen =>
    refine .read ?_
    unfold Cursor.step
    refine .bind .current ?_
    simp only [firstAhead_cons]
    exact .bind .current (.throw _)

end Parse

end ScalarExpr
