import ScalarExpr.Expr

/-!
# Reading trees from tokens

Each function reads one form of the grammar from the front of a list of tokens and answers with a
tree and the tokens after it, or with an error and the tokens from which reading would go on.

```text
conditional = level 0 ( '?' conditional ':' conditional )?
level n     = level (n + 1) ( operator-of-precedence-n level (n + 1) )*     for n < 6
level 6     = unary
unary       = ( '!' | '+' | '-' ) unary | primary
primary     = NUMBER | STRING | IDENTIFIER | '(' conditional ')'
```

Two limits keep trees small. A parenthesis, a prefix operator or a branch of a conditional may be
opened while fewer than a given number of them are open, and a binary operator may not make a tree
higher than a given height. The limits are parameters, and either may be absent.

The end of input is no token of the list: where the list is empty, its offset is known separately.
-/

namespace ScalarExpr

/-- Which token has to close a construct. -/
inductive Closer
  | colon
  | rightParen
  deriving DecidableEq, Repr

/-- What a message calls a missing closing token. -/
def Closer.describe : Closer → String
  | .colon => "':' in conditional expression"
  | .rightParen => "')' to close '('"

/-- The kind of the closing token. -/
def Closer.kind : Closer → TokenKind
  | .colon => .colon
  | .rightParen => .rightParen

/-- Why tokens make no expression. -/
inductive ParseError
  | unexpectedToken (text : String) (offset : Nat)
  | expected (closer : Closer) (offset : Nat)
  | trailingToken (text : String) (offset : Nat)
  | invalidNumber (offset : Nat)
  | tooDeep (offset : Nat)
  deriving DecidableEq, Repr

namespace ParseError

/-- The offset of the token that the error is about. -/
def offset : ParseError → Nat
  | unexpectedToken _ offset => offset
  | expected _ offset => offset
  | trailingToken _ offset => offset
  | invalidNumber offset => offset
  | tooDeep offset => offset

/-- The text of the error. -/
def message : ParseError → String
  | unexpectedToken text _ => "Unexpected token: " ++ text
  | expected closer _ => "Expected " ++ closer.describe
  | trailingToken text _ => "Unexpected token after expression: " ++ text
  | invalidNumber _ => "Invalid number literal"
  | tooDeep _ => "Expression is nested too deeply"

end ParseError

/-- Bounds on expressions; one that is absent never refuses. -/
structure Limits where
  /-- How many parentheses, prefix operators and branches may be open at once. -/
  nesting : Option Nat
  /-- The greatest height of a tree whose root is a binary operator. -/
  height : Option Nat
  deriving DecidableEq, Repr

namespace Limits

/-- The limits in general use. -/
def standard : Limits := ⟨some 64, some 256⟩

/-- No limits. -/
def unlimited : Limits := ⟨none, none⟩

/-- Whether one more construct may be opened inside this many. -/
def allowsInside (limits : Limits) (opened : Nat) : Bool :=
  match limits.nesting with
  | some bound => opened < bound
  | none => true

/-- Whether a binary operator may make a tree of this height. -/
def allowsHeight (limits : Limits) (height : Nat) : Bool :=
  match limits.height with
  | some bound => height ≤ bound
  | none => true

end Limits

/-- What stays fixed while an expression is read: the limits, and the offset of the end of input. -/
structure Setting where
  limits : Limits
  stop : Nat

/-- The result of reading from fewer than `bound` tokens: a tree and the tokens after it, or an error
and the tokens from which reading would go on. -/
inductive Outcome (bound : Nat)
  | done (expr : Expr) (rest : List Token) (shorter : rest.length < bound)
  | failed (error : ParseError) (rest : List Token)

namespace Outcome

/-- A result stays one under a greater bound. -/
def widen {bound bound' : Nat} (outcome : Outcome bound) (h : bound ≤ bound') : Outcome bound' :=
  match outcome with
  | done expr rest shorter => done expr rest (Nat.lt_of_lt_of_le shorter h)
  | failed error rest => failed error rest

end Outcome

/-- The offset of the first token, or of the end of input if there is none. -/
def Setting.offset (setting : Setting) : List Token → Nat
  | [] => setting.stop
  | token :: _ => token.offset

/-- The tokens after a closing token, if the list starts with one. -/
def Closer.skip? (closer : Closer) : List Token → Option (Token × List Token)
  | [] => none
  | token :: rest => if token.kind = closer.kind then some (token, rest) else none

/-- A closing token is one token. -/
theorem Closer.length_of_skip? {closer : Closer} {tokens rest : List Token} {token : Token}
    (h : closer.skip? tokens = some (token, rest)) : rest.length < tokens.length := by
  cases tokens with
  | nil => simp [skip?] at h
  | cons first others =>
    simp only [skip?] at h
    split at h
    · cases h; simp
    · cases h

/-- The binary operator of this precedence that the list starts with, and the tokens after it. -/
def operatorAt? (precedence : Nat) : List Token → Option (BinaryOp × Nat × List Token)
  | [] => none
  | token :: rest =>
    match BinaryOp.ofKind? token.kind with
    | some op => if op.precedence = precedence then some (op, token.offset, rest) else none
    | none => none

/-- An operator is one token. -/
theorem length_of_operatorAt? {precedence offset : Nat} {tokens rest : List Token} {op : BinaryOp}
    (h : operatorAt? precedence tokens = some (op, offset, rest)) :
    rest.length < tokens.length := by
  cases tokens with
  | nil => simp [operatorAt?] at h
  | cons first others =>
    simp only [operatorAt?] at h
    split at h
    · split at h
      · cases h; simp
      · cases h
    · cases h

/-- The question mark that the list starts with, as its offset, and the tokens after it. -/
def questionAt? : List Token → Option (Nat × List Token)
  | [] => none
  | token :: rest => if token.kind = .question then some (token.offset, rest) else none

/-- A question mark is one token. -/
theorem length_of_questionAt? {offset : Nat} {tokens rest : List Token}
    (h : questionAt? tokens = some (offset, rest)) : rest.length < tokens.length := by
  cases tokens with
  | nil => simp [questionAt?] at h
  | cons first others =>
    simp only [questionAt?] at h
    split at h
    · cases h; simp
    · cases h

namespace Parse

mutual

/-- Reads a conditional, or an expression without one, inside `opened` open constructs. -/
def conditional (setting : Setting) (opened : Nat) (tokens : List Token) :
    Outcome tokens.length :=
  match level setting opened 0 tokens with
  | .failed error rest => .failed error rest
  | .done condition rest shorter =>
    match hquestion : questionAt? rest with
    | none => .done condition rest shorter
    | some (question, afterQuestion) =>
      have hq := length_of_questionAt? hquestion
      if setting.limits.allowsInside opened then
        match conditional setting (opened + 1) afterQuestion with
        | .failed error rest => .failed error rest
        | .done whenTrue rest shorterTrue =>
          match hcolon : Closer.colon.skip? rest with
          | none => .failed (.expected .colon (setting.offset rest)) rest
          | some (colon, afterColon) =>
            have hc := Closer.length_of_skip? hcolon
            if setting.limits.allowsInside opened then
              match conditional setting (opened + 1) afterColon with
              | .failed error rest => .failed error rest
              | .done whenFalse rest shorterFalse =>
                .done (.conditional condition whenTrue whenFalse) rest (by omega)
            else .failed (.tooDeep colon.offset) afterColon
      else .failed (.tooDeep question) afterQuestion
termination_by 16 * tokens.length + 9
decreasing_by all_goals (have : BinaryOp.levels = 6 := rfl; omega)

/-- Reads an expression whose binary operators outside parentheses have at least this precedence. -/
def level (setting : Setting) (opened precedence : Nat) (tokens : List Token) :
    Outcome tokens.length :=
  if precedence < BinaryOp.levels then
    match level setting opened (precedence + 1) tokens with
    | .failed error rest => .failed error rest
    | .done left rest shorter =>
      (extend setting opened precedence left left.height rest).widen shorter
  else unary setting opened tokens
termination_by 16 * tokens.length + 2 + (BinaryOp.levels - precedence)
decreasing_by all_goals (have : BinaryOp.levels = 6 := rfl; omega)

/-- Reads on after the left operand of a chain of operators of one precedence, whose height is
known. -/
def extend (setting : Setting) (opened precedence : Nat) (left : Expr) (height : Nat)
    (tokens : List Token) : Outcome (tokens.length + 1) :=
  match hoperator : operatorAt? precedence tokens with
  | none => .done left tokens (Nat.lt_succ_self _)
  | some (op, offset, afterOperator) =>
    have ho := length_of_operatorAt? hoperator
    match level setting opened (precedence + 1) afterOperator with
    | .failed error rest => .failed error rest
    | .done right rest shorter =>
      let taller := max height right.height + 1
      if setting.limits.allowsHeight taller then
        (extend setting opened precedence (.binary op left right offset) taller rest).widen
          (by omega)
      else .failed (.tooDeep offset) rest
termination_by 16 * tokens.length
decreasing_by all_goals (have : BinaryOp.levels = 6 := rfl; omega)

/-- Reads prefix operators and what they stand before. -/
def unary (setting : Setting) (opened : Nat) (tokens : List Token) : Outcome tokens.length :=
  match tokens with
  | [] => primary setting opened []
  | token :: rest =>
    match UnaryOp.ofKind? token.kind with
    | none => primary setting opened (token :: rest)
    | some op =>
      if setting.limits.allowsInside opened then
        match unary setting (opened + 1) rest with
        | .failed error rest => .failed error rest
        | .done operand rest shorter =>
          .done (.unary op operand token.offset) rest (by simp only [List.length_cons]; omega)
      else .failed (.tooDeep token.offset) (token :: rest)
termination_by 16 * tokens.length + 1

/-- Reads a literal, an identifier, or an expression in parentheses. -/
def primary (setting : Setting) (opened : Nat) (tokens : List Token) : Outcome tokens.length :=
  match tokens with
  | [] => .failed (.unexpectedToken TokenKind.endOfInput.describe setting.stop) []
  | token :: rest =>
    have hrest : rest.length < (token :: rest).length := by simp
    match token.kind with
    | .number =>
      match Number.ofNumeral? token.text.toList with
      | some value => .done (.number value token.offset) rest hrest
      | none => .failed (.invalidNumber token.offset) rest
    | .string => .done (.text (token.contents?.getD "") token.offset) rest hrest
    | .identifier => .done (.identifier token.text token.offset) rest hrest
    | .leftParen =>
      if setting.limits.allowsInside opened then
        match conditional setting (opened + 1) rest with
        | .failed error rest => .failed error rest
        | .done inner rest shorter =>
          match hparen : Closer.rightParen.skip? rest with
          | none => .failed (.expected .rightParen (setting.offset rest)) rest
          | some (_, afterParen) =>
            have hp := Closer.length_of_skip? hparen
            .done inner afterParen (by omega)
      else .failed (.tooDeep token.offset) (token :: rest)
    | _ => .failed (.unexpectedToken token.displayText token.offset) (token :: rest)
termination_by 16 * tokens.length

end

end Parse

/-- Tokens that are being read, up to the end of input. -/
structure TokenStream where
  /-- The tokens that are left; none of them is the end of input. -/
  tokens : List Token
  /-- The offset of the end of input. -/
  stop : Nat
  deriving DecidableEq, Repr

namespace TokenStream

/-- The tokens before the first end of input. Where a list has no end of input, it ends right behind
its last token, whose offset and length are added as machine words. -/
def ofTokens (tokens : List Token) : TokenStream where
  tokens := tokens.takeWhile (·.kind ≠ .endOfInput)
  stop :=
    match tokens.find? (·.kind = .endOfInput) with
    | some token => token.offset
    | none =>
      match tokens.getLast? with
      | some token => token.behind
      | none => 0

/-- Reads one expression that has to take all tokens, and leaves those from which a further reading
goes on. -/
def parse (limits : Limits) (stream : TokenStream) : Except ParseError Expr × TokenStream :=
  match Parse.conditional ⟨limits, stream.stop⟩ 0 stream.tokens with
  | .failed error rest => (.error error, { stream with tokens := rest })
  | .done expr rest _ =>
    match rest with
    | [] => (.ok expr, { stream with tokens := [] })
    | token :: rest =>
      (.error (.trailingToken token.text token.offset), { stream with tokens := token :: rest })

/-- The answers of successive readings, each going on where the one before stopped. -/
def answers (limits : Limits) : Nat → TokenStream → List (Except ParseError Expr)
  | 0, _ => []
  | calls + 1, stream =>
    let (answer, after) := stream.parse limits
    answer :: answers limits calls after

end TokenStream

end ScalarExpr
