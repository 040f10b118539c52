import ScalarExpr.Proofs.Parsing.Cursor
import ScalarExpr.Proofs.Parsing.Positions

/-!
# Calling a parser again

A parser goes on where it stopped, whether with a tree or with an error. After any number of calls it
stands in its tokens before the first end of input or at it, has no construct open, and answers like a
new parser of what is ahead. The answers are those of a stream of tokens that is read again and again.

Each call follows the reading of the stream that is left. So the induction over the calls carries the
stream along with the cursor: what is ahead of the one is what is left of the other.
-/

namespace ScalarExpr

/-- The tokens of a parser: an end of input is put behind tokens that do not end with one. -/
def completed (tokens : List Token) : List Token :=
  if tokens.getLast?.map Token.kind = some .endOfInput then tokens
  else
    tokens ++ [⟨.endOfInput, "", (tokens.getLast?.map Token.behind).getD 0⟩]

namespace Cursor

variable (limits : Limits) (tokens : List Token)

/-- The cursor after this many calls of a parser, if all of them come to a result. -/
def after : Nat → Option Cursor
  | 0 => some start
  | calls + 1 => (after calls).bind fun cursor => ((parse limits tokens).run.run cursor).map Prod.snd

/-- The answer of the call after this many others. -/
def answer? (calls : Nat) : Option (Except ParseError Expr) :=
  (after limits tokens calls).bind fun cursor => ((parse limits tokens).run.run cursor).map Prod.fst

end Cursor

section Completed

variable {tokens : List Token}

/-- Tokens that end with an end of input are complete. -/
theorem completed_of_getLast? (h : tokens.getLast?.map Token.kind = some .endOfInput) :
    completed tokens = tokens :=
  if_pos h

/-- Complete tokens end with an end of input. -/
theorem getLast?_completed (tokens : List Token) :
    (completed tokens).getLast?.map Token.kind = some .endOfInput := by
  unfold completed
  split
  · assumption
  · simp

/-- Tokens among which an end of input is have a first one. -/
theorem exists_eq_append_of_mem {last : Token} (hlast : last ∈ tokens)
    (hkind : last.kind = .endOfInput) : ∃ words stop later,
      tokens = words ++ stop :: later ∧ (∀ token ∈ words, token.kind ≠ .endOfInput) ∧
        stop.kind = .endOfInput := by
  have hfind : (tokens.find? (·.kind = .endOfInput)).isSome :=
    List.find?_isSome.mpr ⟨last, hlast, decide_eq_true hkind⟩
  obtain ⟨stop, hstop⟩ := Option.isSome_iff_exists.mp hfind
  obtain ⟨hkind, words, later, hsplit, hwords⟩ := List.find?_eq_some_iff_append.mp hstop
  exact ⟨words, stop, later, hsplit, by simpa using hwords, by simpa using hkind⟩

/-- Complete tokens have a first end of input. -/
theorem exists_completed_eq (tokens : List Token) : ∃ words stop later,
    completed tokens = words ++ stop :: later ∧ (∀ token ∈ words, token.kind ≠ .endOfInput) ∧
      stop.kind = .endOfInput := by
  obtain ⟨last, hlast, hkind⟩ := Option.map_eq_some_iff.mp (getLast?_completed tokens)
  exact exists_eq_append_of_mem (List.mem_of_getLast? hlast) hkind

/-- A stream of tokens is the same as that of the tokens when they are complete. -/
theorem TokenStream.ofTokens_completed (tokens : List Token) :
    ofTokens (completed tokens) = ofTokens tokens := by
  unfold completed
  split
  · rfl
  · by_cases hnone : ∀ token ∈ tokens, token.kind ≠ .endOfInput
    · have hfind : tokens.find? (·.kind = .endOfInput) = none := by simpa using hnone
      have htake : tokens.takeWhile (·.kind ≠ .endOfInput) = tokens := by simpa using hnone
      rw [ofTokens_append_end hnone rfl]
      simp only [ofTokens, hfind, htake]
      cases tokens.getLast? <;> rfl
    · push Not at hnone
      obtain ⟨last, hlast, hkind⟩ := hnone
      obtain ⟨words, stop, later, rfl, hwords, hstop⟩ := exists_eq_append_of_mem hlast hkind
      rw [List.append_assoc, List.cons_append, ofTokens_append_cons hwords hstop,
        ofTokens_append_cons hwords hstop]

end Completed

namespace TokenStream

variable {limits : Limits} {stop : Token} {tokens : List Token}

/-- What is left of a stream after it is read once. -/
def rest (limits : Limits) (stream : TokenStream) : TokenStream := (stream.parse limits).2

/-- A reading does not move the end of input. -/
theorem stop_rest (limits : Limits) (stream : TokenStream) :
    (stream.rest limits).stop = stream.stop := by
  unfold rest parse
  split
  · rfl
  · split <;> rfl

/-- The answer after some calls is that of what they leave of the stream. -/
theorem getElem?_answers (limits : Limits) (calls : Nat) (stream : TokenStream) :
    (stream.answers limits (calls + 1))[calls]? =
      some (((rest limits)^[calls] stream).parse limits).1 := by
  induction calls generalizing stream with
  | zero => rfl
  | succ calls ih => exact ih (stream.rest limits)

/-- A parse leaves tokens of the stream. -/
theorem rest_subset (limits : Limits) (stream : TokenStream) :
    (stream.rest limits).tokens ⊆ stream.tokens := by
  have hmarks {result : Except ParseError Expr} {rest : List Token}
      (h : Parse.answer ⟨limits, stream.stop⟩ 0 stream.tokens (.form .conditional) =
        (result, rest)) : rest ⊆ stream.tokens :=
    ((Parse.answer_eq_iff_reads.mp h).marks (List.Subset.refl _)).1
  unfold rest parse
  cases houtcome : Parse.conditional ⟨limits, stream.stop⟩ 0 stream.tokens with
  | failed error rest => exact hmarks (congrArg Outcome.answer houtcome)
  | done e rest shorter =>
    have hrest := hmarks (congrArg Outcome.answer houtcome)
    cases rest <;> exact hrest

/-- With enough calls, a parser follows the reading of the stream that is ahead of it. -/
theorem follows_parseWithin (hstop : stop.kind = .endOfInput)
    (htokens : ∀ token ∈ tokens, token.kind ≠ .endOfInput) :
    Follows stop 0 (Cursor.callsWithin tokens.length (.form .conditional) + 1)
      (Cursor.parseWithin limits) tokens ((⟨tokens, stop.offset⟩ : TokenStream).parse limits).1
      ((⟨tokens, stop.offset⟩ : TokenStream).rest limits).tokens := by
  have hfollows {result : Except ParseError Expr} {rest : List Token}
      (h : Parse.answer ⟨limits, stop.offset⟩ 0 tokens (.form .conditional) = (result, rest)) :
      Follows stop 0 (Cursor.callsWithin tokens.length (.form .conditional) + 1)
        (fun list depth => Cursor.read limits list depth (.form .conditional)) tokens result rest :=
    (Parse.answer_eq_iff_reads.mp h).follows hstop
  have hsubset := rest_subset limits ⟨tokens, stop.offset⟩
  unfold rest parse at hsubset ⊢
  unfold Cursor.parseWithin
  cases houtcome : Parse.conditional ⟨limits, stop.offset⟩ 0 tokens with
  | failed error rest => exact .bind_error (hfollows (congrArg Outcome.answer houtcome))
  | done e rest shorter =>
    rw [houtcome] at hsubset
    refine .bind (hfollows (congrArg Outcome.answer houtcome)) (.bind .current ?_)
    cases rest with
    | nil => exact .ite_neg (by simp [hstop]) (.pure e)
    | cons token others =>
      have hkind := htokens token (hsubset List.mem_cons_self)
      exact .ite_pos hkind (.bind .current (.throw _))

/-- A parser has enough calls: there are no more tokens ahead of it than it has. -/
theorem follows_parse (hstop : stop.kind = .endOfInput)
    (htokens : ∀ token ∈ tokens, token.kind ≠ .endOfInput) :
    Follows stop 0 0 (fun list _ => Cursor.parse limits list) tokens
      ((⟨tokens, stop.offset⟩ : TokenStream).parse limits).1
      ((⟨tokens, stop.offset⟩ : TokenStream).rest limits).tokens := by
  intro cursor hopened
  obtain ⟨next, hclosed, hle, hordered, hrun⟩ :=
    @follows_parseWithin limits _ _ hstop htokens cursor hopened
  refine ⟨next, hclosed, hle, hordered, fun list later _ _ hahead =>
    hrun list later _ (Nat.succ_le_succ ?_) hahead⟩
  have hlength := congrArg List.length hahead
  simp only [List.length_drop, List.length_append, List.length_cons] at hlength
  simp only [Cursor.callsWithin]
  omega

/-- Of an empty stream only the end of input is read, and no call changes this. -/
theorem parse_nil (limits : Limits) (stop : Nat) :
    (⟨[], stop⟩ : TokenStream).parse limits =
      (.error (.unexpectedToken "end of input" stop), ⟨[], stop⟩) := by
  simp [parse, Parse.conditional, Parse.level, Parse.unary, Parse.primary, BinaryOp.levels,
    TokenKind.describe]

/-- A tree has taken all tokens. -/
theorem rest_of_parse_eq_ok {stream : TokenStream} {e : Expr}
    (h : (stream.parse limits).1 = .ok e) : stream.rest limits = ⟨[], stream.stop⟩ := by
  unfold rest
  unfold parse at h ⊢
  split
  · simp_all
  · split <;> simp_all

/-- What calls leave of a stream are tokens of it, before the same end of input. -/
theorem iterate_rest (limits : Limits) (calls : Nat) (stream : TokenStream) :
    ((rest limits)^[calls] stream).stop = stream.stop ∧
      ((rest limits)^[calls] stream).tokens ⊆ stream.tokens := by
  induction calls with
  | zero => exact ⟨rfl, List.Subset.refl _⟩
  | succ calls ih =>
    rw [Function.iterate_succ_apply']
    exact ⟨(stop_rest limits _).trans ih.1, List.Subset.trans (rest_subset limits _) ih.2⟩

/-- Once a tree is read, only the end of input is. -/
theorem parse_iterate_of_ok {stream : TokenStream} {earlier calls : Nat} (hlt : earlier < calls)
    {e : Expr} (h : (((rest limits)^[earlier] stream).parse limits).1 = .ok e) :
    (((rest limits)^[calls] stream).parse limits).1 =
      .error (.unexpectedToken "end of input" stream.stop) := by
  have hempty : (rest limits)^[earlier + 1] stream = ⟨[], stream.stop⟩ := by
    rw [Function.iterate_succ_apply', rest_of_parse_eq_ok h, (iterate_rest limits earlier stream).1]
  have hfixed : rest limits ⟨[], stream.stop⟩ = ⟨[], stream.stop⟩ :=
    congrArg Prod.snd (parse_nil limits stream.stop)
  obtain ⟨more, rfl⟩ := Nat.exists_eq_add_of_le' (Nat.succ_le_of_lt hlt)
  rw [Function.iterate_add_apply, hempty, Function.iterate_fixed hfixed, parse_nil]

end TokenStream

open TokenStream

/-- What holds of the call of a parser that comes after `calls` others and takes it from `cursor` to
`next`, where the first end of input among its tokens is `stop` and `words` come before it. -/
structure Reusable (limits : Limits) (tokens words : List Token) (stop : Token) (calls : Nat)
    (cursor next : Cursor) (answer : Except ParseError Expr) : Prop where
  /-- The other calls have left the parser at `cursor`, and it is left at `next`. -/
  cursors : Cursor.after limits (completed tokens) calls = some cursor ∧
    Cursor.after limits (completed tokens) (calls + 1) = some next
  /-- The call comes to an answer, so that every token it looks at is there and it goes no deeper
  than the readers may. -/
  call : (Cursor.parse limits (completed tokens)).run.run cursor = some (answer, next)
  /-- All this is the same with anything behind the first end of input, or with nothing. -/
  blind : ∀ later, Cursor.after limits (words ++ stop :: later) calls = some cursor ∧
    (Cursor.parse limits (words ++ stop :: later)).run.run cursor = some (answer, next)
  /-- The cursor has not moved back, neither from call to call nor in a call, and has not passed the
  first end of input. -/
  forward : cursor.index ≤ next.index ∧ next.Ordered ∧ next.index ≤ words.length
  /-- No construct is open before the call, nor after it. -/
  closed : cursor.opened = 0 ∧ next.opened = 0
  /-- A new parser of the tokens from the cursor on gives the same answer. -/
  fresh : Cursor.answer? limits (completed ((completed tokens).drop cursor.index)) 0 = some answer
  /-- So does a stream of the tokens that has been read as often. -/
  stream : ((TokenStream.ofTokens tokens).answers limits (calls + 1))[calls]? = some answer
  /-- After a call with a tree, the end of input is all that is left. -/
  ended : ∀ earlier < calls, ∀ e, Cursor.answer? limits (completed tokens) earlier = some (.ok e) →
    answer = .error (.unexpectedToken "end of input" stop.offset)

section Calls

variable {words : List Token} {stop : Token}

/-- Every call follows the reading of what the calls before it leave of the stream. -/
theorem follows_iterate (limits : Limits) (hstop : stop.kind = .endOfInput)
    (hwords : ∀ token ∈ words, token.kind ≠ .endOfInput) (calls : Nat) :
    let left := (rest limits)^[calls] ⟨words, stop.offset⟩
    Follows stop 0 0 (fun list _ => Cursor.parse limits list) left.tokens (left.parse limits).1
      ((rest limits)^[calls + 1] ⟨words, stop.offset⟩).tokens := by
  obtain ⟨hleft, hsubset⟩ := iterate_rest limits calls ⟨words, stop.offset⟩
  rw [Function.iterate_succ_apply']
  generalize (rest limits)^[calls] ⟨words, stop.offset⟩ = left at hleft hsubset ⊢
  obtain ⟨tokens, _⟩ := left
  obtain rfl := hleft
  exact follows_parse hstop fun token htoken => hwords token (hsubset htoken)

/-- After some calls, what is ahead of a parser is what they leave of the stream. -/
theorem exists_after (limits : Limits) (hstop : stop.kind = .endOfInput)
    (hwords : ∀ token ∈ words, token.kind ≠ .endOfInput) (calls : Nat) :
    ∃ cursor : Cursor, cursor.opened = 0 ∧ cursor.Ordered ∧ ∀ later,
      Cursor.after limits (words ++ stop :: later) calls = some cursor ∧
      (words ++ stop :: later).drop cursor.index =
        ((rest limits)^[calls] ⟨words, stop.offset⟩).tokens ++ stop :: later := by
  induction calls with
  | zero => exact ⟨.start, rfl, List.pairwise_singleton _ _, fun later => ⟨rfl, rfl⟩⟩
  | succ calls ih =>
    obtain ⟨cursor, hopened, hordered, hafter⟩ := ih
    obtain ⟨next, hclosed, -, hnext, hrun⟩ :=
      follows_iterate limits hstop hwords calls cursor hopened
    refine ⟨next, hclosed, hnext hordered, fun later => ?_⟩
    obtain ⟨hcursor, hahead⟩ := hafter later
    obtain ⟨hrest, hcall⟩ := hrun _ later 0 (Nat.zero_le _) hahead
    refine ⟨?_, hrest⟩
    rw [Cursor.after, hcursor, Option.bind_some, hcall]
    rfl

/-- The answers of a parser are those of the stream. -/
theorem answer?_eq (limits : Limits) (hstop : stop.kind = .endOfInput)
    (hwords : ∀ token ∈ words, token.kind ≠ .endOfInput) (later : List Token) (calls : Nat) :
    Cursor.answer? limits (words ++ stop :: later) calls =
      some (((rest limits)^[calls] ⟨words, stop.offset⟩).parse limits).1 := by
  obtain ⟨cursor, hopened, -, hafter⟩ := exists_after limits hstop hwords calls
  obtain ⟨next, -, -, -, hrun⟩ := follows_iterate limits hstop hwords calls cursor hopened
  obtain ⟨hcursor, hahead⟩ := hafter later
  rw [Cursor.answer?, hcursor, Option.bind_some, (hrun _ later 0 (Nat.zero_le _) hahead).2]
  rfl

/-- What is ahead of a parser is complete. -/
theorem completed_drop {tokens ahead later : List Token} {index : Nat}
    (h : (completed tokens).drop index = ahead ++ stop :: later) :
    completed ((completed tokens).drop index) = ahead ++ stop :: later := by
  have hlast : ((completed tokens).drop index).getLast? = (completed tokens).getLast? := by
    have hne : index < (completed tokens).length := by
      by_contra hge
      rw [List.drop_eq_nil_of_le (Nat.le_of_not_lt hge)] at h
      simp at h
    rw [List.getLast?_drop, if_neg (Nat.not_le.mpr hne)]
  rw [completed_of_getLast? (by rw [hlast, getLast?_completed]), h]

end Calls

/-- A parser may be called any number of times, whatever the calls before have come to: there is a
first end of input among its tokens, and every call is as described. -/
theorem reusable_after_calls (limits : Limits) (tokens : List Token) :
    ∃ words stop later, completed tokens = words ++ stop :: later ∧
      (∀ token ∈ words, token.kind ≠ .endOfInput) ∧ stop.kind = .endOfInput ∧
      ∀ calls, ∃ cursor next answer,
        Reusable limits tokens words stop calls cursor next answer := by
  obtain ⟨words, stop, later, hsplit, hwords, hstop⟩ := exists_completed_eq tokens
  refine ⟨words, stop, later, hsplit, hwords, hstop, fun calls => ?_⟩
  obtain ⟨cursor, hopened, hordered, hafter⟩ := exists_after limits hstop hwords calls
  obtain ⟨next, hclosed, hle, hnext, hrun⟩ :=
    follows_iterate limits hstop hwords calls cursor hopened
  have hcall (later : List Token) := hrun _ later 0 (Nat.zero_le _) (hafter later).2
  obtain ⟨hleft, hsubset⟩ := iterate_rest limits calls ⟨words, stop.offset⟩
  have hstream : TokenStream.mk _ stop.offset = (rest limits)^[calls] ⟨words, stop.offset⟩ :=
    congrArg (TokenStream.mk _) hleft.symm
  have hlast : next.index ≤ words.length := by
    -- With nothing behind the end of input, what is ahead still holds at least that.
    have hlength := congrArg List.length (hcall []).1
    simp only [List.length_drop, List.length_append, List.length_cons, List.length_nil] at hlength
    omega
  exact ⟨cursor, next, _, {
    cursors := by
      rw [hsplit, Cursor.after, (hafter later).1, Option.bind_some, (hcall later).2]
      exact ⟨rfl, rfl⟩
    call := by rw [hsplit, (hcall later).2]
    blind := fun later => ⟨(hafter later).1, (hcall later).2⟩
    forward := ⟨hle, hnext hordered, hlast⟩
    closed := ⟨hopened, hclosed⟩
    fresh := by
      have hahead := (hafter later).2
      rw [← hsplit] at hahead
      rw [completed_drop hahead,
        answer?_eq limits hstop (fun token htoken => hwords token (hsubset htoken)),
        Function.iterate_zero_apply, hstream]
    stream := by
      rw [getElem?_answers, ← ofTokens_completed, hsplit, ofTokens_append_cons hwords hstop]
    ended := by
      intro earlier hearlier e he
      rw [hsplit, answer?_eq limits hstop hwords] at he
      exact parse_iterate_of_ok hearlier (Option.some.inj he) }⟩

end ScalarExpr
