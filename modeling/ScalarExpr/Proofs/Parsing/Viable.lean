import ScalarExpr.Proofs.Parsing.Accepts
import ScalarExpr.Proofs.Parsing.Phrase

/-!
# Errors at the earliest place

A reading that fails for the grammar's sake has taken tokens that some complete expression starts
with, and stops at the first token that no complete expression has there. So every construct that is
open when it stops can still be closed, and nothing that the grammar allows is refused.

The limits play no part in this: a reading that fails because of a limit, or because a numeral cannot
be read, is not covered.
-/

namespace ScalarExpr

/-- The errors that the grammar is the cause of, and not a limit or the value of a numeral. -/
def ParseError.IsSyntax : ParseError → Prop
  | unexpectedToken _ _ | expected _ _ | trailingToken _ _ => True
  | invalidNumber _ | tooDeep _ => False

namespace Progress

/-- Nothing of what is left may come next: not the first token, nor the end where there is none. -/
def Refuses (progress : Progress) : List Token → Prop
  | [] => progress ≠ .read []
  | token :: _ => progress.step token.kind = none

/-- Where an operand is due, a token that starts none is refused, and so is the end. -/
theorem refuses_of_due {pending : List Closer} {tokens : List Token}
    (h : ∀ token ∈ tokens.head?, UnaryOp.ofKind? token.kind = none ∧ token.kind ≠ .number ∧
      token.kind ≠ .string ∧ token.kind ≠ .identifier ∧ token.kind ≠ .leftParen) :
    (due pending).Refuses tokens := by
  cases tokens with
  | nil => simp [Refuses]
  | cons token rest =>
    obtain ⟨hunary, hnumber, hstring, hidentifier, hparen⟩ := h token rfl
    simp [Refuses, step, hunary]

/-- Behind an operand, a token that neither goes on nor closes the innermost construct is refused. -/
theorem refuses_of_read {pending : List Closer} {tokens : List Token}
    (hoperator : Parse.EndsChain 0 tokens) (hquestion : questionAt? tokens = none)
    (hcloser : ∀ closer ∈ pending.head?, closer.skip? tokens = none)
    (hend : pending = [] → tokens ≠ []) : (read pending).Refuses tokens := by
  cases tokens with
  | nil =>
    intro hread
    cases hread
    exact hend rfl rfl
  | cons token rest =>
    have hnone : BinaryOp.ofKind? token.kind = none :=
      Option.eq_none_iff_forall_ne_some.mpr fun op hop =>
        Nat.not_lt_zero _ (hoperator token rfl op (BinaryOp.ofKind?_eq_some_iff.mp hop))
    have hmark : token.kind ≠ .question := questionAt?_eq_none_iff.mp hquestion token rfl
    have hkind : ∀ closer ∈ pending.head?, token.kind ≠ closer.kind := fun closer hmem hkind =>
      Option.some_ne_none _
        ((Closer.skip?_eq_some_iff.mpr ⟨rfl, hkind⟩).symm.trans (hcloser closer hmem))
    simp only [Refuses, step, hnone, Option.isSome_none, Bool.false_eq_true, if_false]
    split
    · next hquestion => exact absurd hquestion hmark
    · next hcolon => exact absurd hcolon (hkind .colon rfl)
    · next hparen => exact absurd hparen (hkind .rightParen rfl)
    · rfl

end Progress

/-- How far an expression has come when a task begins: a chain goes on behind its left operand. -/
def Task.start : Task → List Closer → Progress
  | .form _ => .due
  | .chain _ _ _ => .read

/-- Some phrase starts with these kinds; those of a chain stand behind what is read already. -/
def Task.Starts : Task → List TokenKind → Prop
  | .form shape, kinds => ∃ after, Phrase shape (kinds ++ after)
  | .chain tier _ _, kinds =>
    ∀ before, Phrase (.level tier) before →
      ∃ after, Phrase (.level tier) (before ++ (kinds ++ after))

namespace Parse

variable {setting : Setting} {task : Task} {opened : Nat} {tokens rest : List Token}
  {result : Except ParseError Expr} {error : ParseError}

/-- What stops a reading that yields a tree: the tokens behind it cannot belong to the form. The
chain of a level ends where no operator of its own or of a tighter level follows. -/
def Ended (tokens rest : List Token) : Task → Prop
  | .form .conditional => EndsChain 0 rest ∧ questionAt? rest = none
  | .form (.level tier) => EndsChain tier rest
  | .form .unary | .form .primary => True
  | .chain tier _ _ => EndsChain (tier + 1) tokens → EndsChain tier rest

/-- Where no operator of a level follows, and none of a tighter one, the chain of the level ends. -/
theorem EndsChain.of_operatorAt? {tier : Nat} (h : EndsChain (tier + 1) rest)
    (hnone : operatorAt? tier rest = none) : EndsChain tier rest := by
  intro token htoken op hop
  have hle := Nat.le_of_lt_succ (h token htoken op hop)
  exact Nat.lt_of_le_of_ne hle (operatorAt?_eq_none_iff.mp hnone token htoken op hop)

/-- A reading that yields a tree stops only before what cannot belong to the form. -/
theorem Reads.ended (h : Reads setting task opened tokens result rest) :
    ∀ e, result = .ok e → Ended tokens rest task := by
  induction h with
  | conditionFails | questionTooDeep | whenTrueFails | colonMissing | whenFalseFails | leftFails
  | rightFails | tooHigh | prefixTooDeep | prefixFails | endOfInput | invalidNumber | parenTooDeep
  | innerFails | parenMissing | unexpected =>
    intro e he
    cases he
  | plain _ hquestion ih => exact fun e he => ⟨ih e he, hquestion⟩
  | choice _ _ _ _ _ _ _ _ ihFalse => exact fun e he => ihFalse _ rfl
  | chained _ _ _ ih ihChain => exact fun e he => ihChain e he (ih _ rfl)
  | operand hlevels _ _ =>
    intro e he token htoken op hop
    exact Nat.lt_of_lt_of_le op.tier_lt_length_tiers (Nat.le_of_not_lt hlevels)
  | chainEnds hoperator => exact fun e he hends => hends.of_operatorAt? hoperator
  | chainGoesOn _ _ _ _ ih ihChain => exact fun e he _ => ihChain e he (ih _ rfl)
  | noPrefix | prefixOp | number | text | identifier | parentheses => exact fun e he => trivial

/-- The tokens that a reading of a form takes are a phrase of the form. -/
theorem Reads.phrase {form : Form} {e : Expr}
    (h : Reads setting (.form form) opened tokens (.ok e) rest) :
    ∃ taken, tokens = taken ++ rest ∧ Phrase form (taken.map (·.kind)) := by
  obtain ⟨taken, htokens, hderives, -⟩ := h.justified e rfl
  exact ⟨taken, htokens, hderives.phrase⟩

/-- A reading has taken tokens that a phrase starts with, and stops where nothing that is left may
come next. Its error is attributed to that place. -/
def StopsEarly (setting : Setting) (task : Task) (tokens rest : List Token) (error : ParseError) :
    Prop :=
  ∃ taken, tokens = taken ++ rest ∧ error.offset = setting.offset rest ∧
    task.Starts (taken.map (·.kind)) ∧
    ∀ pending, ∃ progress, (task.start pending).run (taken.map (·.kind)) = some progress ∧
      progress.Refuses rest

/-- What stops early behind some tokens stops early with them, if they lead to where it starts. -/
theorem StopsEarly.behind {task' : Task} (h : StopsEarly setting task' tokens rest error)
    (before : List Token)
    (hstart : ∀ pending, ∃ pending',
      (task.start pending).run (before.map (·.kind)) = some (task'.start pending'))
    (hstarts : ∀ kinds, task'.Starts kinds → task.Starts (before.map (·.kind) ++ kinds)) :
    StopsEarly setting task (before ++ tokens) rest error := by
  obtain ⟨taken, rfl, hoffset, htaken, hall⟩ := h
  refine ⟨before ++ taken, by rw [List.append_assoc], hoffset, ?_, fun pending => ?_⟩
  · rw [List.map_append]
    exact hstarts _ htaken
  · obtain ⟨pending', hbefore⟩ := hstart pending
    obtain ⟨progress, hrun, hrefuses⟩ := hall pending'
    refine ⟨progress, ?_, hrefuses⟩
    rw [List.map_append, Progress.run_append, hbefore]
    exact hrun

/-- A reading that fails for the grammar's sake stops early. A primary is only read where no prefix
operator stands. -/
theorem Reads.stopsEarly (h : Reads setting task opened tokens result rest) :
    ∀ error, result = .error error → error.IsSyntax →
      (task = .form .primary → ∀ token ∈ tokens.head?, UnaryOp.ofKind? token.kind = none) →
      StopsEarly setting task tokens rest error := by
  induction h with
  | plain | choice | chainEnds | prefixOp | number | text | identifier | parentheses =>
    intro error herror
    cases herror
  | questionTooDeep | tooHigh | prefixTooDeep | invalidNumber | parenTooDeep =>
    rintro error ⟨⟩ ⟨⟩
  | conditionFails _ ih =>
    intro error herror hgrammar _
    refine (ih error herror hgrammar nofun).behind [] (fun pending => ⟨pending, rfl⟩) ?_
    exact fun kinds ⟨after, hphrase⟩ => ⟨after, hphrase.plain⟩
  | @whenTrueFails opened tokens condition rest question afterQuestion error rest' hcondition
      hquestion _ _ _ ihTrue =>
    intro error herror hgrammar _
    obtain ⟨first, rfl, hfirst⟩ := hcondition.phrase
    obtain ⟨mark, rfl, hmark, -⟩ := questionAt?_eq_some_iff.mp hquestion
    have hstop : StopsEarly setting (.form .conditional) ((first ++ [mark]) ++ afterQuestion) rest'
        error := by
      refine (ihTrue error herror hgrammar nofun).behind (first ++ [mark])
        (fun pending => ⟨.colon :: pending, ?_⟩) ?_
      · simp only [Task.start, List.map_append, hfirst.run_append, List.map_singleton, hmark]
        rfl
      · rintro kinds ⟨after, hphrase⟩
        have hchoice := Phrase.choice hfirst hphrase (Phrase.name .conditional)
        exact ⟨after ++ [.colon, .identifier], by simpa [hmark] using hchoice⟩
    simpa using hstop
  | @colonMissing opened tokens condition rest question afterQuestion whenTrue rest' hcondition
      hquestion _ htrue hcolon _ _ =>
    rintro error ⟨⟩ _ _
    obtain ⟨first, rfl, hfirst⟩ := hcondition.phrase
    obtain ⟨mark, rfl, hmark, -⟩ := questionAt?_eq_some_iff.mp hquestion
    obtain ⟨second, rfl, hsecond⟩ := htrue.phrase
    have hended := htrue.ended _ rfl
    refine ⟨first ++ mark :: second, by simp, rfl, ?_, fun pending =>
      ⟨.read (.colon :: pending), ?_, ?_⟩⟩
    · have hchoice := Phrase.choice hfirst hsecond (Phrase.name .conditional)
      exact ⟨[.colon, .identifier], by simpa [hmark] using hchoice⟩
    · simp only [Task.start, List.map_append, hfirst.run_append, List.map_cons, hmark]
      exact hsecond.run (.colon :: pending)
    · refine Progress.refuses_of_read hended.1 hended.2 ?_ nofun
      rintro closer ⟨⟩
      exact hcolon
  | @whenFalseFails opened tokens condition rest question afterQuestion whenTrue rest' colon
      afterColon error rest'' hcondition hquestion _ htrue hcolon _ _ _ ihFalse =>
    intro error herror hgrammar _
    obtain ⟨first, rfl, hfirst⟩ := hcondition.phrase
    obtain ⟨mark, rfl, hmark, -⟩ := questionAt?_eq_some_iff.mp hquestion
    obtain ⟨second, rfl, hsecond⟩ := htrue.phrase
    obtain ⟨rfl, hcolonKind⟩ := Closer.skip?_eq_some_iff.mp hcolon
    have hstop : StopsEarly setting (.form .conditional)
        ((first ++ mark :: (second ++ [colon])) ++ afterColon) rest'' error := by
      refine (ihFalse error herror hgrammar nofun).behind (first ++ mark :: (second ++ [colon]))
        (fun pending => ⟨pending, ?_⟩) ?_
      · simp only [Task.start, List.map_append, hfirst.run_append, List.map_cons, hmark]
        change (Progress.due (.colon :: pending)).run _ = _
        rw [hsecond.run_append, List.map_nil, hcolonKind]
        rfl
      · rintro kinds ⟨after, hphrase⟩
        have hchoice := Phrase.choice hfirst hsecond hphrase
        exact ⟨after, by simpa [hmark, hcolonKind, Closer.kind] using hchoice⟩
    simpa using hstop
  | leftFails hlevels _ ih =>
    intro error herror hgrammar _
    refine (ih error herror hgrammar nofun).behind [] (fun pending => ⟨pending, rfl⟩) ?_
    exact fun kinds ⟨after, hphrase⟩ => ⟨after, hphrase.tighter hlevels⟩
  | @chained opened precedence tokens left rest result rest' hlevels hleft _ _ ihChain =>
    intro error herror hgrammar _
    obtain ⟨before, rfl, hbefore⟩ := hleft.phrase
    refine (ihChain error herror hgrammar nofun).behind before
      (fun pending => ⟨pending, hbefore.run pending⟩) ?_
    intro kinds hkinds
    obtain ⟨after, hphrase⟩ := hkinds _ (hbefore.tighter hlevels)
    exact ⟨after, by rwa [List.append_assoc]⟩
  | operand hlevels _ ih =>
    intro error herror hgrammar _
    refine (ih error herror hgrammar nofun).behind [] (fun pending => ⟨pending, rfl⟩) ?_
    exact fun kinds ⟨after, hphrase⟩ => ⟨after, hphrase.operand (Nat.le_of_not_lt hlevels)⟩
  | @rightFails opened precedence left height tokens op offset afterOperator error rest hoperator _
      ih =>
    intro error herror hgrammar _
    obtain ⟨token, rfl, hop, rfl, -⟩ := operatorAt?_eq_some_iff.mp hoperator
    refine (ih error herror hgrammar nofun).behind [token] (fun pending => ⟨pending, ?_⟩) ?_
    · change (Progress.read pending).run [token.kind] = _
      rw [Progress.run_cons, Progress.step_read_of_operator hop]
      rfl
    · rintro kinds ⟨after, hphrase⟩ before hbefore
      exact ⟨after, Phrase.chain hop hbefore hphrase⟩
  | @chainGoesOn opened precedence left height tokens op offset afterOperator right rest result
      rest' hoperator hright _ _ _ ihChain =>
    intro error herror hgrammar _
    obtain ⟨token, rfl, hop, rfl, -⟩ := operatorAt?_eq_some_iff.mp hoperator
    obtain ⟨taken, rfl, htaken⟩ := hright.phrase
    refine (ihChain error herror hgrammar nofun).behind (token :: taken)
      (fun pending => ⟨pending, ?_⟩) ?_
    · change (Progress.read pending).run (token.kind :: _) = _
      rw [Progress.run_cons, Progress.step_read_of_operator hop]
      exact htaken.run pending
    · intro kinds hkinds before hbefore
      obtain ⟨after, hphrase⟩ := hkinds _ (Phrase.chain hop hbefore htaken)
      exact ⟨after, by simpa using hphrase⟩
  | noPrefix hprefix _ ih =>
    intro error herror hgrammar _
    refine (ih error herror hgrammar fun _ => hprefix).behind [] (fun pending => ⟨pending, rfl⟩) ?_
    exact fun kinds ⟨after, hphrase⟩ => ⟨after, hphrase.primary⟩
  | @prefixFails opened token tokens op error rest hprefix _ _ ih =>
    intro error herror hgrammar _
    have hop := UnaryOp.ofKind?_eq_some_iff.mp hprefix
    refine (ih error herror hgrammar nofun).behind [token] (fun pending => ⟨pending, ?_⟩) ?_
    · change (Progress.due pending).run [token.kind] = _
      rw [Progress.run_cons, Progress.step_due_of_prefix hop]
      rfl
    · exact fun kinds ⟨after, hphrase⟩ => ⟨after, hphrase.prefixOp hop⟩
  | endOfInput =>
    rintro error ⟨⟩ _ _
    exact ⟨[], rfl, rfl, ⟨_, Phrase.name .primary⟩, fun pending =>
      ⟨.due pending, rfl, Progress.refuses_of_due nofun⟩⟩
  | @innerFails opened token tokens error rest hparen _ _ ih =>
    intro error herror hgrammar _
    refine (ih error herror hgrammar nofun).behind [token]
      (fun pending => ⟨.rightParen :: pending, ?_⟩) ?_
    · rw [List.map_singleton, hparen]
      rfl
    · rintro kinds ⟨after, hphrase⟩
      exact ⟨after ++ [.rightParen], by simpa [hparen] using hphrase.parentheses⟩
  | @parenMissing opened token tokens inner rest hparen _ hinner hcloser _ =>
    rintro error ⟨⟩ _ _
    obtain ⟨taken, rfl, htaken⟩ := hinner.phrase
    have hended := hinner.ended _ rfl
    refine ⟨token :: taken, rfl, rfl, ?_, fun pending => ⟨.read (.rightParen :: pending), ?_, ?_⟩⟩
    · exact ⟨[.rightParen], by simpa [hparen] using htaken.parentheses⟩
    · rw [List.map_cons, hparen]
      exact htaken.run (.rightParen :: pending)
    · refine Progress.refuses_of_read hended.1 hended.2 ?_ nofun
      rintro closer ⟨⟩
      exact hcloser
  | @unexpected opened token tokens hnumber hstring hidentifier hparen =>
    rintro error ⟨⟩ _ hunary
    refine ⟨[], rfl, rfl, ⟨_, Phrase.name .primary⟩, fun pending =>
      ⟨.due pending, rfl, Progress.refuses_of_due ?_⟩⟩
    rintro first ⟨⟩
    exact ⟨hunary rfl token rfl, hnumber, hstring, hidentifier, hparen⟩

end Parse

/-- A parse that fails for the grammar's sake has taken tokens that a complete expression starts
with, and nothing that is left may come next. -/
theorem TokenStream.refuses_of_parse {limits : Limits} {stream : TokenStream} {error : ParseError}
    (h : (stream.parse limits).1 = .error error) (hgrammar : error.IsSyntax) :
    ∃ taken, stream.tokens = taken ++ (stream.parse limits).2.tokens ∧
      error.offset = Setting.offset ⟨limits, stream.stop⟩ (stream.parse limits).2.tokens ∧
      (∃ after, Phrase .conditional (taken.map (·.kind) ++ after)) ∧
      ∃ progress, (Progress.due []).run (taken.map (·.kind)) = some progress ∧
        progress.Refuses (stream.parse limits).2.tokens := by
  rcases parse_error_cases h with hreads | ⟨e, token, rest, hrest, rfl, hreads⟩
  · obtain ⟨taken, htokens, hoffset, hstarts, hstops⟩ := hreads.stopsEarly error rfl hgrammar nofun
    exact ⟨taken, htokens, hoffset, hstarts, hstops []⟩
  · obtain ⟨taken, htokens, hphrase⟩ := hreads.phrase
    have hended := hreads.ended e rfl
    rw [hrest]
    exact ⟨taken, htokens, rfl, ⟨[], by rwa [List.append_nil]⟩, .read [], hphrase.run [],
      Progress.refuses_of_read hended.1 hended.2 nofun fun _ => List.cons_ne_nil _ _⟩

/-- A syntax error is attributed to the earliest token that is at fault, which is the one at which
the parser stands: the tokens before it start a complete expression, and together with it they start
none. Where this is the end of input, they are no complete expression themselves. -/
theorem syntaxError_at_first_fault {tokens : List Token} {stop : Token} {error : ParseError}
    {left : TokenStream} (htokens : ∀ token ∈ tokens, token.kind ≠ .endOfInput)
    (hstop : stop.kind = .endOfInput) (hgrammar : error.IsSyntax)
    (hparse : (TokenStream.ofTokens (tokens ++ [stop])).parse .standard = (.error error, left)) :
    ∃ before current later, tokens ++ [stop] = before ++ current :: later ∧
      left.tokens ++ [stop] = current :: later ∧ error.offset = current.offset ∧
      (∃ after, Complete (before ++ after)) ∧ (∀ after, ¬ Complete (before ++ current :: after)) ∧
      (current.kind = .endOfInput → ¬ Complete before) := by
  rw [TokenStream.ofTokens_append_end htokens hstop] at hparse
  obtain ⟨before, hsplit, hoffset, ⟨after, hafter⟩, progress, hrun, hrefuses⟩ :=
    TokenStream.refuses_of_parse (congrArg Prod.fst hparse) hgrammar
  simp only [hparse] at hsplit hoffset hrefuses
  have hviable : ∃ after, Complete (before ++ after) := by
    refine ⟨after.map fun kind => ⟨kind, "", 0⟩, ?_⟩
    simpa [Complete, Function.comp_def] using hafter
  cases hleft : left.tokens with
  | nil =>
    rw [hleft] at hsplit hoffset hrefuses
    refine ⟨before, stop, [], by simpa using hsplit, rfl, hoffset, hviable,
      fun after => not_complete_of_step hrun ?_, fun _ => not_complete_of_ne hrun hrefuses⟩
    rw [hstop]
    exact Progress.step_endOfInput
  | cons current rest =>
    rw [hleft] at hsplit hoffset hrefuses
    have hmem : current ∈ tokens := by simp [hsplit]
    exact ⟨before, current, rest ++ [stop], by simp [hsplit], rfl, hoffset, hviable,
      fun after => not_complete_of_step hrun hrefuses, fun hend => absurd hend (htokens _ hmem)⟩

/-- A parenthesis cannot be closed before a conditional inside it has its colon. -/
theorem syntaxError_at_closing_parenthesis :
    let words : List Token := [⟨.leftParen, "(", 0⟩, ⟨.identifier, "a", 1⟩, ⟨.question, "?", 3⟩,
      ⟨.identifier, "b", 5⟩, ⟨.rightParen, ")", 6⟩]
    let stop : Token := ⟨.endOfInput, "", 7⟩
    let left : TokenStream := ⟨[⟨.rightParen, ")", 6⟩], 7⟩
    (TokenStream.ofTokens (words ++ [stop])).parse .standard =
        (.error (.expected .colon 6), left) ∧
      ∃ before current later, words ++ [stop] = before ++ current :: later ∧
        left.tokens ++ [stop] = current :: later ∧
        (ParseError.expected .colon 6).offset = current.offset ∧
        (∃ after, Complete (before ++ after)) ∧
        (∀ after, ¬ Complete (before ++ current :: after)) ∧
        (current.kind = .endOfInput → ¬ Complete before) := by
  intro words stop left
  have hparse : (TokenStream.ofTokens (words ++ [stop])).parse .standard =
      (.error (.expected .colon 6), left) := by cbv
  exact ⟨hparse, syntaxError_at_first_fault (by decide) rfl trivial hparse⟩

end ScalarExpr
