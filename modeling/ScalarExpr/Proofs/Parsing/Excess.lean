import ScalarExpr.Proofs.Parsing.Place
import ScalarExpr.Proofs.Parsing.Viable

/-!
# What the limits decide

The limits decide nothing but whether a reading is refused. A reading that is not refused goes the
same way under limits that allow more, to the same answer, whether this is a tree or an error.

A reading is refused at a token that would open a construct inside as many as may be open, or at a
binary operator that would make a tree higher than allowed. The second branch of a conditional is
never refused by itself, since the first one has been opened inside as many constructs.
-/

namespace ScalarExpr

/-- Limits are at most others if these allow all that they allow. -/
instance : LE Limits where
  le limits limits' :=
    (∀ bound' ∈ limits'.nesting, ∃ bound ∈ limits.nesting, bound ≤ bound') ∧
      ∀ bound' ∈ limits'.height, ∃ bound ∈ limits.height, bound ≤ bound'

section Laxer

variable {limits limits' : Limits}

/-- Greater limits allow as many open constructs. -/
theorem Limits.allowsInside_mono (h : limits ≤ limits') {opened : Nat}
    (hallowed : limits.allowsInside opened = true) : limits'.allowsInside opened = true := by
  rw [allowsInside_iff] at hallowed ⊢
  intro bound' hbound'
  obtain ⟨bound, hbound, hle⟩ := h.1 bound' hbound'
  exact Nat.lt_of_lt_of_le (hallowed bound hbound) hle

/-- Greater limits allow as high trees. -/
theorem Limits.allowsHeight_mono (h : limits ≤ limits') {height : Nat}
    (hallowed : limits.allowsHeight height = true) : limits'.allowsHeight height = true := by
  rw [allowsHeight_iff] at hallowed ⊢
  intro bound' hbound'
  obtain ⟨bound, hbound, hle⟩ := h.2 bound' hbound'
  exact Nat.le_trans (hallowed bound hbound) hle

namespace Parse

/-- A reading that no limit refuses goes the same way under greater limits. -/
theorem Reads.mono {stop opened : Nat} {task : Task} {tokens rest : List Token}
    {result : Except ParseError Expr} (hlimits : limits ≤ limits')
    (h : Reads ⟨limits, stop⟩ task opened tokens result rest)
    (hresult : ∀ offset, result ≠ .error (.tooDeep offset)) :
    Reads ⟨limits', stop⟩ task opened tokens result rest := by
  have hinside {opened : Nat} (hallowed : limits.allowsInside opened = true) :=
    Limits.allowsInside_mono hlimits hallowed
  induction h with
  | questionTooDeep | tooHigh | prefixTooDeep | parenTooDeep => exact absurd rfl (hresult _)
  | conditionFails _ ih => exact .conditionFails (ih hresult)
  | plain _ hquestion ih => exact .plain (ih nofun) hquestion
  | whenTrueFails _ hquestion hallowed _ ih ihTrue =>
    exact .whenTrueFails (ih nofun) hquestion (hinside hallowed) (ihTrue hresult)
  | colonMissing _ hquestion hallowed _ hcolon ih ihTrue =>
    exact .colonMissing (ih nofun) hquestion (hinside hallowed) (ihTrue nofun) hcolon
  | whenFalseFails _ hquestion hallowed _ hcolon _ ih ihTrue ihFalse =>
    exact .whenFalseFails (ih nofun) hquestion (hinside hallowed) (ihTrue nofun) hcolon
      (ihFalse hresult)
  | choice _ hquestion hallowed _ hcolon _ ih ihTrue ihFalse =>
    exact .choice (ih nofun) hquestion (hinside hallowed) (ihTrue nofun) hcolon (ihFalse nofun)
  | leftFails hlevels _ ih => exact .leftFails hlevels (ih hresult)
  | chained hlevels _ _ ih ihChain => exact .chained hlevels (ih nofun) (ihChain hresult)
  | operand hlevels _ ih => exact .operand hlevels (ih hresult)
  | chainEnds hoperator => exact .chainEnds hoperator
  | rightFails hoperator _ ih => exact .rightFails hoperator (ih hresult)
  | chainGoesOn hoperator _ hallowed _ ih ihChain =>
    exact .chainGoesOn hoperator (ih nofun) (Limits.allowsHeight_mono hlimits hallowed)
      (ihChain hresult)
  | noPrefix hprefix _ ih => exact .noPrefix hprefix (ih hresult)
  | prefixFails hop hallowed _ ih => exact .prefixFails hop (hinside hallowed) (ih hresult)
  | prefixOp hop hallowed _ ih => exact .prefixOp hop (hinside hallowed) (ih nofun)
  | endOfInput => exact .endOfInput
  | number hkind hvalue => exact .number hkind hvalue
  | invalidNumber hkind hvalue => exact .invalidNumber hkind hvalue
  | text hkind => exact .text hkind
  | identifier hkind => exact .identifier hkind
  | innerFails hkind hallowed _ ih => exact .innerFails hkind (hinside hallowed) (ih hresult)
  | parenMissing hkind hallowed _ hparen ih =>
    exact .parenMissing hkind (hinside hallowed) (ih nofun) hparen
  | parentheses hkind hallowed _ hparen ih =>
    exact .parentheses hkind (hinside hallowed) (ih nofun) hparen
  | unexpected hnumber hstring hidentifier hparen =>
    exact .unexpected hnumber hstring hidentifier hparen

end Parse

end Laxer

/-- What derives a tree derives it inside other constructs, too, if there is as much room inside these
as there was inside the first. -/
theorem Derives.moved {nesting nesting' : Option Nat} {form : Form} {opened opened' : Nat}
    {tokens : List Token} {e : Expr} (h : Derives nesting form opened tokens e)
    (hroom : ∀ deeper, (∀ bound ∈ nesting, opened + deeper < bound) →
      ∀ bound ∈ nesting', opened' + deeper < bound) : Derives nesting' form opened' tokens e := by
  have hdeeper {opened opened' : Nat}
      (hroom : ∀ deeper, (∀ bound ∈ nesting, opened + deeper < bound) →
        ∀ bound ∈ nesting', opened' + deeper < bound)
      (deeper : Nat) (h : ∀ bound ∈ nesting, opened + 1 + deeper < bound) :
      ∀ bound ∈ nesting', opened' + 1 + deeper < bound := by
    rw [Nat.add_right_comm] at h ⊢
    exact hroom (deeper + 1) h
  induction h generalizing opened' with
  | number hkind hvalue => exact .number hkind hvalue
  | text hkind => exact .text hkind
  | identifier hkind => exact .identifier hkind
  | parentheses hleft hright hallowed _ ih =>
    exact .parentheses hleft hright (hroom 0 hallowed) (ih (hdeeper hroom))
  | primary _ ih => exact .primary (ih hroom)
  | prefixOp hop hallowed _ ih => exact .prefixOp hop (hroom 0 hallowed) (ih (hdeeper hroom))
  | operand hlevels _ ih => exact .operand hlevels (ih hroom)
  | tighter hlevels _ ih => exact .tighter hlevels (ih hroom)
  | chain hop _ _ ihLeft ihRight => exact .chain hop (ihLeft hroom) (ihRight hroom)
  | plain _ ih => exact .plain (ih hroom)
  | choice hquestion hcolon hallowed _ _ _ ih ihTrue ihFalse =>
    exact .choice hquestion hcolon (hroom 0 hallowed) (ih hroom) (ihTrue (hdeeper hroom))
      (ihFalse (hdeeper hroom))

/-- What derives a tree derives it inside any number of constructs where nothing bounds them. -/
theorem Derives.unbounded {nesting : Option Nat} {form : Form} {opened : Nat} {tokens : List Token}
    {e : Expr} (h : Derives nesting form opened tokens e) (opened' : Nat) :
    Derives none form opened' tokens e :=
  h.moved fun _ _ => nofun

/-- The place behind tokens that come first. -/
def Place.behind (tokens : List Token) : Option Place := (due []).run (tokens.map (·.kind))

/-- Behind these tokens the left operand of a chain of this tier starts, with these constructs open
around it: nothing right before it takes less than the whole chain for its operand. -/
structure StartsChain (tier : Nat) (before : List Token) (around : List Construct) : Prop where
  /-- An operand is due. -/
  due : Place.behind before = some (.due around)
  /-- It is not that of a prefix operator. -/
  head?_ne : around.head? ≠ some .prefixOp
  /-- It is not that of a binary operator that binds as tightly. -/
  looser : ∀ token ∈ before.getLast?, ∀ op : BinaryOp, token.kind = op.kind → op.tier < tier

/-- How limits are exceeded by some tokens, and the offset of the token at which they are. -/
inductive Limits.ExceededAt (limits : Limits) (tokens : List Token) : Nat → Prop
  /-- A token would open a construct inside as many as may be open. -/
  | opening (before after : List Token) {token : Token} {place : Place} :
    tokens = before ++ token :: after → Place.behind before = some place →
    place.Opens token.kind → limits.nesting = some place.around.length →
    ExceededAt limits tokens token.offset
  /-- A binary operator would make a tree of its two whole operands that is higher than allowed. -/
  | operator (before operand operand' after : List Token) {token : Token} {op : BinaryOp}
      {left right : Expr} {around : List Construct} {bound : Nat} :
    tokens = before ++ (operand ++ token :: (operand' ++ after)) →
    token.kind = op.kind → StartsChain op.tier before around →
    Derives none (.level op.tier) 0 operand left →
    Derives none (.level (op.tier + 1)) 0 operand' right → Parse.EndsChain (op.tier + 1) after →
    limits.height = some bound → bound < (Expr.binary op left right token.offset).height →
    ExceededAt limits tokens token.offset

namespace Place

variable {before tokens : List Token} {around : List Construct}

/-- One more token is one more step. -/
theorem behind_append_singleton {place place' : Place} {token : Token}
    (h : behind before = some place) (hstep : place.step token.kind = some place') :
    behind (before ++ [token]) = some place' := by
  rw [behind] at h
  rw [behind, List.map_append, run_append, h, Option.bind_some, List.map_singleton, run_cons, hstep]
  rfl

/-- Behind a phrase that is no conditional the same is open as behind any operand. -/
theorem behind_append_phrase {form : Form} (h : behind before = some (due around))
    (hphrase : Phrase form (tokens.map (·.kind))) (hform : form ≠ .conditional) :
    behind (before ++ tokens) = some (read (Construct.behindOperand around)) := by
  obtain ⟨branches, hrun, hbranches⟩ := hphrase.place around
  cases hbranches hform
  rw [behind] at h
  rw [behind, List.map_append, run_append, h, Option.bind_some, hrun]
  rfl

/-- Behind a conditional the innermost construct around it can be closed. -/
theorem behind_append_conditional {construct : Construct} {outer : List Construct}
    (h : behind before = some (due (construct :: outer)))
    (hphrase : Phrase .conditional (tokens.map (·.kind))) (hopens : construct ≠ .prefixOp)
    (hbranch : construct ≠ .whenFalse) :
    ∃ around, behind (before ++ tokens) = some (read around) ∧
      Construct.behindBranches around = construct :: outer := by
  obtain ⟨branches, hrun, -⟩ := hphrase.place (construct :: outer)
  rw [Construct.behindOperand_cons construct outer hopens] at hrun
  refine ⟨_, ?_, Construct.behindBranches_replicate branches construct outer hbranch⟩
  rw [behind] at h
  rw [behind, List.map_append, run_append, h, Option.bind_some, hrun]

end Place

namespace StartsChain

variable {tier level : Nat} {before operand : List Token} {around : List Construct}

/-- Where a chain starts, the left operand of a tighter one may start, too. -/
theorem mono {tier' : Nat} (h : StartsChain tier before around) (hle : tier ≤ tier') :
    StartsChain tier' before around where
  due := h.due
  head?_ne := h.head?_ne
  looser token htoken op hop := Nat.lt_of_lt_of_le (h.looser token htoken op hop) hle

/-- Behind the left operand the same constructs are open as before it. -/
theorem behind_append (h : StartsChain tier before around)
    (hphrase : Phrase (.level level) (operand.map (·.kind))) :
    Place.behind (before ++ operand) = some (.read around) := by
  have hbehind := Place.behind_append_phrase h.due hphrase (by simp)
  have hsame : Construct.behindOperand around = around := by
    cases around with
    | nil => rfl
    | cons construct outer =>
      exact Construct.behindOperand_cons construct outer fun hopens => h.head?_ne (by simp [hopens])
  rwa [hsame] at hbehind

/-- Behind a condition and its mark the first branch is due. -/
theorem behind_question {mark : Token} (h : StartsChain tier before around)
    (hphrase : Phrase (.level level) (operand.map (·.kind))) (hmark : mark.kind = .question) :
    Place.behind (before ++ operand ++ [mark]) = some (.due (.whenTrue :: around)) :=
  Place.behind_append_singleton (h.behind_append hphrase) (by rw [hmark, Place.step_question])

/-- A chain of any tier starts behind a token that is no operator and opens something other
than an operand of its own. -/
theorem of_append_singleton {token : Token} {construct : Construct} {outer : List Construct}
    (h : Place.behind (before ++ [token]) = some (.due (construct :: outer)))
    (hopens : construct ≠ .prefixOp) (htoken : BinaryOp.ofKind? token.kind = none) :
    StartsChain tier (before ++ [token]) (construct :: outer) where
  due := h
  head?_ne := by simpa using hopens
  looser := by
    intro last hlast op hop
    rw [List.getLast?_concat] at hlast
    cases hlast
    rw [← BinaryOp.ofKind?_eq_some_iff, htoken] at hop
    cases hop

/-- The right operand of a binary operator is one of the next tier. -/
theorem behind_operator {token : Token} {op : BinaryOp} (h : StartsChain tier before around)
    (hphrase : Phrase (.level level) (operand.map (·.kind))) (hop : token.kind = op.kind) :
    StartsChain (op.tier + 1) (before ++ operand ++ [token]) around where
  due := Place.behind_append_singleton (h.behind_append hphrase) (Place.step_read_of_operator hop)
  head?_ne := h.head?_ne
  looser := by
    intro last hlast op' hop'
    rw [List.getLast?_concat] at hlast
    cases hlast
    cases BinaryOp.kind_injective (hop.symm.trans hop')
    exact Nat.lt_succ_self _

end StartsChain

/-- A construct that is refused would have been opened inside just as many as may be open, if no more
than these are. -/
theorem Limits.nesting_eq_of_refused {limits : Limits} {opened : Nat}
    (hrefused : limits.allowsInside opened = false)
    (hopened : ∀ bound ∈ limits.nesting, opened ≤ bound) : limits.nesting = some opened := by
  cases hnesting : limits.nesting with
  | none => simp [allowsInside, hnesting] at hrefused
  | some bound =>
    have hle := hopened bound hnesting
    have hge : bound ≤ opened := by simpa [allowsInside, hnesting] using hrefused
    rw [Nat.le_antisymm hge hle]

/-- A height that is refused is greater than the greatest. -/
theorem Limits.exists_lt_of_refused {limits : Limits} {height : Nat}
    (hrefused : limits.allowsHeight height = false) :
    ∃ bound, limits.height = some bound ∧ bound < height := by
  cases hheight : limits.height with
  | none => simp [allowsHeight, hheight] at hrefused
  | some bound => exact ⟨bound, rfl, by simpa [allowsHeight, hheight] using hrefused⟩

namespace Parse

/-- What holds where a task begins: an operand is due with these constructs open around it, or the
left operand of a chain has been read. -/
def Ready (before : List Token) (around : List Construct) : Task → Prop
  | .form .conditional => StartsChain 0 before around
  | .form (.level tier) => StartsChain tier before around
  | .form .unary | .form .primary => Place.behind before = some (.due around)
  | .chain tier left height =>
    ∃ earlier operand, before = earlier ++ operand ∧ StartsChain tier earlier around ∧
      Derives none (.level tier) 0 operand left ∧ height = left.longestPath

/-- Before the first token a conditional is due. -/
theorem ready_conditional : Ready [] [] (.form .conditional) where
  due := rfl
  head?_ne := nofun
  looser := nofun

/-- A reading that a limit refuses is refused at a token that exceeds it, whatever comes before. -/
theorem Reads.exceededAt {setting : Setting} {task : Task} {opened : Nat} {tokens rest : List Token}
    {result : Except ParseError Expr} (h : Reads setting task opened tokens result rest) :
    ∀ offset, result = .error (.tooDeep offset) → ∀ before around, Ready before around task →
      opened = around.length → (∀ bound ∈ setting.limits.nesting, opened ≤ bound) →
      setting.limits.ExceededAt (before ++ tokens) offset := by
  have hinside {opened : Nat} (hallowed : setting.limits.allowsInside opened = true) :
      ∀ bound ∈ setting.limits.nesting, opened + 1 ≤ bound := Limits.allowsInside_iff.mp hallowed
  induction h with
  | plain | choice | colonMissing | chainEnds | prefixOp | endOfInput | number | invalidNumber | text
  | identifier | parenMissing | parentheses | unexpected =>
    rintro offset ⟨⟩
  | conditionFails _ ih => exact ih
  | questionTooDeep hcondition hquestion hrefused _ =>
    rintro offset ⟨⟩ before around hready rfl hopened
    obtain ⟨first, rfl, hfirst⟩ := hcondition.phrase
    obtain ⟨mark, rfl, hmark, rfl⟩ := questionAt?_eq_some_iff.mp hquestion
    exact .opening (before ++ first) _ (List.append_assoc ..).symm (hready.behind_append hfirst)
      hmark (Limits.nesting_eq_of_refused hrefused hopened)
  | whenTrueFails hcondition hquestion hallowed _ _ ihTrue =>
    rintro offset hoffset before around hready rfl _
    obtain ⟨first, rfl, hfirst⟩ := hcondition.phrase
    obtain ⟨mark, rfl, hmark, rfl⟩ := questionAt?_eq_some_iff.mp hquestion
    have hmarked := hready.behind_question hfirst hmark
    have hexceeded := ihTrue offset hoffset _ (.whenTrue :: around)
      (.of_append_singleton hmarked (by decide) (by rw [hmark]; rfl)) rfl (hinside hallowed)
    simpa using hexceeded
  | whenFalseFails hcondition hquestion hallowed htrue hcolon _ _ _ ihFalse =>
    rintro offset hoffset before around hready rfl _
    obtain ⟨first, rfl, hfirst⟩ := hcondition.phrase
    obtain ⟨mark, rfl, hmark, rfl⟩ := questionAt?_eq_some_iff.mp hquestion
    obtain ⟨second, rfl, hsecond⟩ := htrue.phrase
    obtain ⟨rfl, hcolonKind⟩ := Closer.skip?_eq_some_iff.mp hcolon
    have hmarked := hready.behind_question hfirst hmark
    obtain ⟨inner, hread, hbranches⟩ :=
      Place.behind_append_conditional hmarked hsecond (by decide) (by decide)
    have hclosed := Place.behind_append_singleton hread
      ((congrArg _ hcolonKind).trans (Place.step_colon hbranches))
    have hexceeded := ihFalse offset hoffset _ (.whenFalse :: around)
      (.of_append_singleton hclosed (by decide) (by rw [hcolonKind]; rfl)) rfl (hinside hallowed)
    simpa using hexceeded
  | leftFails hlevels _ ih =>
    intro offset hoffset before around hready
    exact ih offset hoffset before around (hready.mono (Nat.le_succ _))
  | chained hlevels hleft _ _ ihChain =>
    intro offset hoffset before around hready hopened hbound
    obtain ⟨taken, rfl, hderives, -⟩ := hleft.justified _ rfl
    have hexceeded := ihChain offset hoffset (before ++ taken) around
      ⟨before, taken, rfl, hready, .tighter hlevels (hderives.unbounded 0),
        Expr.height_eq_longestPath _⟩ hopened hbound
    rwa [List.append_assoc] at hexceeded
  | operand _ _ ih =>
    intro offset hoffset before around hready
    exact ih offset hoffset before around hready.due
  | rightFails hoperator _ ih =>
    rintro offset hoffset before around ⟨earlier, operand, rfl, hstarts, hderives, -⟩ hopened hbound
    obtain ⟨token, rfl, hop, rfl, rfl⟩ := operatorAt?_eq_some_iff.mp hoperator
    have hexceeded := ih offset hoffset (earlier ++ operand ++ [token]) around
      (hstarts.behind_operator hderives.phrase hop) hopened hbound
    simpa using hexceeded
  | tooHigh hoperator hright hrefused _ =>
    rintro offset ⟨⟩ before around ⟨earlier, operand, rfl, hstarts, hderives, hheight⟩ _ _
    obtain ⟨token, rfl, hop, rfl, rfl⟩ := operatorAt?_eq_some_iff.mp hoperator
    obtain ⟨taken, rfl, hderivesRight, -⟩ := hright.justified _ rfl
    obtain ⟨bound, hbound, hlt⟩ := Limits.exists_lt_of_refused hrefused
    refine .operator earlier operand taken _ (by simp) hop hstarts hderives
      (hderivesRight.unbounded 0) (hright.ended _ rfl) hbound ?_
    rwa [Expr.height_eq_longestPath, Expr.longestPath, ← hheight, ← Expr.height_eq_longestPath]
  | chainGoesOn hoperator hright _ _ _ ihChain =>
    rintro offset hoffset before around ⟨earlier, operand, rfl, hstarts, hderives, rfl⟩ hopened hbound
    obtain ⟨token, rfl, hop, rfl, rfl⟩ := operatorAt?_eq_some_iff.mp hoperator
    obtain ⟨taken, rfl, hderivesRight, -⟩ := hright.justified _ rfl
    have hexceeded := ihChain offset hoffset (earlier ++ (operand ++ token :: taken)) around
      ⟨earlier, operand ++ token :: taken, rfl, hstarts,
        .chain hop hderives (hderivesRight.unbounded 0),
        by rw [Expr.height_eq_longestPath, Expr.longestPath]⟩ hopened hbound
    simpa using hexceeded
  | noPrefix _ _ ih => exact ih
  | prefixTooDeep hop hrefused =>
    rintro offset ⟨⟩ before around hready rfl hopened
    exact .opening before _ rfl hready (.inr ⟨_, UnaryOp.ofKind?_eq_some_iff.mp hop⟩)
      (Limits.nesting_eq_of_refused hrefused hopened)
  | prefixFails hop hallowed _ ih =>
    rintro offset hoffset before around hready rfl _
    have hbehind := Place.behind_append_singleton hready (Place.step_due_of_prefix (UnaryOp.ofKind?_eq_some_iff.mp hop))
    have hexceeded := ih offset hoffset _ (.prefixOp :: around) hbehind rfl (hinside hallowed)
    simpa using hexceeded
  | parenTooDeep hkind hrefused =>
    rintro offset ⟨⟩ before around hready rfl hopened
    exact .opening before _ rfl hready (.inl hkind)
      (Limits.nesting_eq_of_refused hrefused hopened)
  | innerFails hkind hallowed _ ih =>
    rintro offset hoffset before around hready rfl _
    have hbehind := Place.behind_append_singleton hready
      ((congrArg _ hkind).trans Place.step_leftParen)
    have hexceeded := ih offset hoffset _ (.parentheses :: around)
      (.of_append_singleton hbehind (by decide) (by rw [hkind]; rfl)) rfl (hinside hallowed)
    simpa using hexceeded

end Parse

/-- What a stream is parsed to under some limits only depends on the answer of the reading. -/
theorem TokenStream.parse_eq_of_answer_eq {stream : TokenStream} {limits limits' : Limits}
    (h : (Parse.conditional ⟨limits', stream.stop⟩ 0 stream.tokens).answer =
      (Parse.conditional ⟨limits, stream.stop⟩ 0 stream.tokens).answer) :
    stream.parse limits' = stream.parse limits := by
  rw [parse, parse]
  cases houtcome : Parse.conditional ⟨limits, stream.stop⟩ 0 stream.tokens with
  | failed error rest =>
    rw [houtcome, Outcome.answer_failed] at h
    rw [Outcome.eq_failed h]
  | done e rest shorter =>
    rw [houtcome, Outcome.answer_done] at h
    obtain ⟨_, hdone⟩ := Outcome.eq_done h
    rw [hdone]

/-- A reading that no limit refuses has the same answer under greater limits, and leaves the same
tokens. One that is refused is refused at a token that exceeds the limits. -/
theorem parse_of_le_limits {limits limits' : Limits} (hlimits : limits ≤ limits')
    (tokens : List Token) :
    ((∀ offset, ((TokenStream.ofTokens tokens).parse limits).1 ≠ .error (.tooDeep offset)) →
      (TokenStream.ofTokens tokens).parse limits' = (TokenStream.ofTokens tokens).parse limits) ∧
    ∀ offset, ((TokenStream.ofTokens tokens).parse limits).1 = .error (.tooDeep offset) →
      limits.ExceededAt (TokenStream.ofTokens tokens).tokens offset := by
  generalize TokenStream.ofTokens tokens = stream
  constructor
  · intro hanswer
    apply TokenStream.parse_eq_of_answer_eq
    have hreads : Parse.Reads ⟨limits, stream.stop⟩ (.form .conditional) 0 stream.tokens
        (Parse.conditional ⟨limits, stream.stop⟩ 0 stream.tokens).answer.1
        (Parse.conditional ⟨limits, stream.stop⟩ 0 stream.tokens).answer.2 :=
      Parse.answer_eq_iff_reads.mp rfl
    refine (hreads.mono hlimits fun offset hrefused => hanswer offset ?_).answer_eq
    rw [TokenStream.parse, Outcome.eq_failed (Prod.ext hrefused rfl)]
  · intro offset hoffset
    rcases TokenStream.parse_error_cases hoffset with hreads | ⟨e, token, rest, -, herror, -⟩
    · exact hreads.exceededAt offset rfl [] [] Parse.ready_conditional rfl fun _ _ => Nat.zero_le _
    · cases herror

/-- Inside one parenthesis another one is refused where only one may be open, and a name is read as
without limits. -/
theorem parse_parentheses_of_le_limits :
    let limits : Limits := ⟨some 1, some 256⟩
    let name : List Token := [⟨.leftParen, "(", 0⟩, ⟨.identifier, "a", 1⟩, ⟨.rightParen, ")", 2⟩]
    let nested : List Token := [⟨.leftParen, "(", 0⟩, ⟨.leftParen, "(", 1⟩, ⟨.identifier, "a", 2⟩]
    limits ≤ Limits.unlimited ∧
      (TokenStream.ofTokens name).parse limits = (.ok (.identifier "a" 1), ⟨[], 3⟩) ∧
      (TokenStream.ofTokens name).parse .unlimited = (.ok (.identifier "a" 1), ⟨[], 3⟩) ∧
      ((TokenStream.ofTokens nested).parse limits).1 = .error (.tooDeep 1) ∧
      limits.ExceededAt (TokenStream.ofTokens nested).tokens 1 := by
  intro limits name nested
  have hlimits : limits ≤ Limits.unlimited := ⟨nofun, nofun⟩
  have hname : (TokenStream.ofTokens name).parse limits = (.ok (.identifier "a" 1), ⟨[], 3⟩) := by
    cbv
  have hnested : ((TokenStream.ofTokens nested).parse limits).1 = .error (.tooDeep 1) := by cbv
  refine ⟨hlimits, hname, ?_, hnested, (parse_of_le_limits hlimits nested).2 1 hnested⟩
  rw [(parse_of_le_limits hlimits name).1 (by simp [hname])]
  exact hname

end ScalarExpr
