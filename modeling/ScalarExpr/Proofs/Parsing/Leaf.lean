import ScalarExpr.Proofs.Parsing.Accepts
import ScalarExpr.Proofs.Parsing.Source
import ScalarExpr.Proofs.Token.Contents
import ScalarExpr.Proofs.Token.Sole

/-!
# Reading a leaf

A unary expression that nothing goes on is read as a whole expression, and so is its failure. So a
text that is a string or a numeral alone is read as this literal, and a numeral that stands for no
number is refused at its place, be there a minus in front of it or not.
-/

namespace ScalarExpr

namespace Parse

variable {setting : Setting} {opened : Nat} {tokens rest : List Token}
  {result : Except ParseError Expr}

/-- What is read as a unary expression before something that ends every chain is so read at every
level. -/
theorem Reads.level_of_unary (h : Reads setting (.form .unary) opened tokens result rest)
    (hends : EndsChain 0 rest) (precedence : Nat) :
    Reads setting (.form (.level precedence)) opened tokens result rest := by
  -- The induction goes down from the tightest level, which is that of the operands.
  induction hlooser : BinaryOp.levels - precedence generalizing precedence with
  | zero => exact .operand (by omega) h
  | succ looser ih =>
    have htighter := ih (precedence + 1) (by omega)
    cases result with
    | error error => exact .leftFails (by omega) htighter
    | ok e => exact .chained (by omega) htighter (hends.mono (Nat.zero_le _)).reads

/-- What is read as a unary expression before something that goes on no expression is so read as an
expression. -/
theorem Reads.conditional_of_unary (h : Reads setting (.form .unary) opened tokens result rest)
    (hends : EndsChain 0 rest) (hquestion : questionAt? rest = none) :
    Reads setting (.form .conditional) opened tokens result rest := by
  have hlevel := h.level_of_unary hends 0
  cases result with
  | error error => exact .conditionFails hlevel
  | ok e => exact .plain hlevel hquestion

/-- What is read from a numeral, with a minus in front of it or without. -/
def numeralResult (negative : Bool) (text : List Char) (offset : Nat) : Except ParseError Expr :=
  match Number.ofNumeral? text with
  | some value =>
    .ok (if negative then .unary .minus (.number value (offset + 1)) offset
      else .number value offset)
  | none => .error (.invalidNumber (offset + negative.toNat))

/-- A numeral is read as the number that it stands for, with a minus in front of it or without. -/
theorem reads_numeral {negative : Bool} {text : List Char} {offset : Nat}
    (hallowed : setting.limits.allowsInside opened = true) (rest : List Token) :
    Reads setting (.form .unary) opened
      (signTokens negative offset ++
        ⟨.number, String.ofList text, offset + negative.toNat⟩ :: rest)
      (numeralResult negative text offset) rest := by
  let token : Token := ⟨.number, String.ofList text, offset + negative.toNat⟩
  have hprefix : ∀ first ∈ (token :: rest).head?, UnaryOp.ofKind? first.kind = none := by
    rintro first ⟨⟩
    rfl
  have htext : token.text.toList = text := String.toList_ofList
  unfold numeralResult
  cases hvalue : Number.ofNumeral? text with
  | none =>
    have hfails : Reads setting (.form .unary) (opened + negative.toNat) (token :: rest)
        (.error (.invalidNumber token.offset)) rest :=
      .noPrefix hprefix (.invalidNumber rfl (htext ▸ hvalue))
    cases negative with
    | false => exact hfails
    | true => exact .prefixFails rfl hallowed hfails
  | some value =>
    have hreads : Reads setting (.form .unary) (opened + negative.toNat) (token :: rest)
        (.ok (.number value token.offset)) rest :=
      .noPrefix hprefix (.number rfl (htext ▸ hvalue))
    cases negative with
    | false => exact hreads
    | true => exact .prefixOp rfl hallowed hreads

/-- A string is read as its contents. -/
theorem reads_quoted {quote : Char} {contents : List Char} (offset : Nat) (rest : List Token) :
    Reads setting (.form .unary) opened
      (⟨.string, String.ofList (quote :: (contents ++ [quote])), offset⟩ :: rest)
      (.ok (.text (String.ofList contents) offset)) rest := by
  let token : Token := ⟨.string, String.ofList (quote :: (contents ++ [quote])), offset⟩
  have hcontents : token.contents? = some (String.ofList contents) :=
    Token.contents?_of_quoted rfl String.toList_ofList
  have hreads : Reads setting (.form .primary) opened (token :: rest)
      (.ok (.text (token.contents?.getD "") token.offset)) rest := .text rfl
  rw [hcontents] at hreads
  refine .noPrefix ?_ hreads
  rintro first ⟨⟩
  rfl

end Parse

namespace TokenStream

variable {limits : Limits} {stream : TokenStream}

/-- What is read without a token being left is the answer of a parser. -/
theorem parse_of_reads {result : Except ParseError Expr}
    (h : Parse.Reads ⟨limits, stream.stop⟩ (.form .conditional) 0 stream.tokens result []) :
    (stream.parse limits).1 = result := by
  cases result with
  | error error =>
    have hanswer := h.answer_eq
    rw [Parse.answer] at hanswer
    rw [parse, Outcome.eq_failed hanswer]
  | ok e => exact parse_eq_ok_iff.mpr h

/-- A token that is left behind a tree is an error. -/
theorem parse_of_reads_before {e : Expr} {token : Token} {rest : List Token}
    (h : Parse.Reads ⟨limits, stream.stop⟩ (.form .conditional) 0 stream.tokens (.ok e)
      (token :: rest)) :
    (stream.parse limits).1 = .error (.trailingToken token.text token.offset) := by
  have hanswer := h.answer_eq
  rw [Parse.answer] at hanswer
  obtain ⟨shorter, houtcome⟩ := Outcome.eq_done hanswer
  rw [parse, houtcome]

/-- A unary expression that takes all tokens is the answer of a parser. -/
theorem parse_of_reads_unary {result : Except ParseError Expr}
    (h : Parse.Reads ⟨limits, stream.stop⟩ (.form .unary) 0 stream.tokens result []) :
    (stream.parse limits).1 = result :=
  parse_of_reads (h.conditional_of_unary nofun rfl)

end TokenStream

section Source

variable {source : String} {front back : List Char}

/-- A text that is a string between blanks is read as the contents of the string. -/
theorem ofSource_of_quoted {quote : Char} {contents : List Char} (hquote : IsQuote quote)
    (hcontents : quote ∉ contents) (hfront : IsGap front) (hback : IsGap back)
    (hsource : source.toList = front ++ (quote :: (contents ++ [quote]) ++ back)) :
    Expr.ofSource source = .ok (.text (String.ofList contents) front.length) := by
  have htokens := @tokenize_of_lexeme source false _ _ _ _ (.string hquote hcontents) hfront hback
    hsource
  have hparse := @TokenStream.parse_of_reads_unary .standard ⟨_, source.length⟩ _
    (@Parse.reads_quoted _ 0 quote contents front.length [])
  rw [Expr.ofSource_of_tokenize htokens]
  exact congrArg (Except.mapError SourceError.parse) hparse

/-- A text that is a numeral between blanks, perhaps with a minus in front of it, is read as the number
that the numeral stands for. -/
theorem ofSource_of_numeral {negative : Bool} {taken : List Char} (hlexeme : Lexeme .number taken)
    (hfront : IsGap front) (hback : IsGap back)
    (hsource : source.toList = front ++ Binary64.signed negative (taken ++ back)) :
    Expr.ofSource source =
      (Parse.numeralResult negative taken front.length).mapError SourceError.parse := by
  have hparse := @TokenStream.parse_of_reads_unary .standard ⟨_, source.length⟩ _
    (@Parse.reads_numeral _ 0 negative taken front.length rfl [])
  rw [Expr.ofSource_of_tokenize (tokenize_of_lexeme hlexeme hfront hback hsource)]
  exact congrArg (Except.mapError SourceError.parse) hparse

end Source

end ScalarExpr
