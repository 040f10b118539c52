import ScalarExpr.Proofs.Token.Respacing
import Mathlib.Order.Monotone.Basic

/-!
# Steps of a scanner

A scanner may be asked for tokens any number of times, also after an error and after the end of
input. `Scanner.Step` says what one step can do, and every fact about a step is read off it: the text
that is left stays the same text, the answer lies between where the scanner stood and where it stands
afterwards, and only a token leaves open what comes next.

After any other answer all later ones are known. A second point is no token, so it is met again at
once; an unterminated string has used up the text; and at a character that starts no token, as at the
end of input, the scanner stays. Since all but these last answers use up characters, there are no more
of them than the text has.
-/

namespace ScalarExpr

open Text

namespace Scanner

/-- The scanner after a number of steps. -/
def after (scanner : Scanner) (steps : Nat) : Scanner :=
  (fun scanner : Scanner => scanner.next.2)^[steps] scanner

/-- The answer to the step that comes after a number of others. -/
def answer (scanner : Scanner) (steps : Nat) : Except LexError Token :=
  (scanner.after steps).next.1

/-- The offset of what a step answers. -/
def offsetOf : Except LexError Token → Nat
  | .ok token => token.offset
  | .error error => error.offset

/-- The answers behind the first are those of the scanner that the first step leaves. -/
theorem answer_succ (scanner : Scanner) (steps : Nat) :
    scanner.answer (steps + 1) = scanner.next.2.answer steps := rfl

/-- The last step is taken by the scanner that the others leave. -/
theorem after_succ' (scanner : Scanner) (steps : Nat) :
    scanner.after (steps + 1) = (scanner.after steps).next.2 :=
  Function.iterate_succ_apply' _ steps scanner

/-- Steps are taken one behind the other. -/
theorem after_add (scanner : Scanner) (steps more : Nat) :
    scanner.after (steps + more) = (scanner.after steps).after more := by
  rw [Nat.add_comm]
  exact Function.iterate_add_apply _ more steps scanner

/-- The later answers are those of the scanner that the earlier steps leave. -/
theorem answer_add (scanner : Scanner) (steps more : Nat) :
    scanner.answer (steps + more) = (scanner.after steps).answer more :=
  congrArg (fun scanner : Scanner => scanner.next.1) (scanner.after_add steps more)

/-- A scanner that a step leaves as it is answers every step alike. -/
theorem answer_of_fixed {scanner : Scanner} {found : Except LexError Token}
    (h : scanner.next = (found, scanner)) (steps : Nat) : scanner.answer steps = found := by
  have hfixed : scanner.after steps = scanner :=
    Function.iterate_fixed (congrArg Prod.snd h) steps
  rw [answer, hfixed, h]

/-- What a step of a scanner can do: behind a gap it takes a lexeme, or it fails there, or it is at
the end. -/
inductive Step (scanner : Scanner) : Except LexError Token → Scanner → Prop
  | finish : IsGap scanner.rest →
    Step scanner (.ok ⟨.endOfInput, "", scanner.position + scanner.rest.length⟩)
      ⟨[], scanner.position + scanner.rest.length, true⟩
  | token {gap taken rest : List Char} {kind : TokenKind} :
    scanner.rest = gap ++ (taken ++ rest) → Lexeme kind taken →
    Step scanner (.ok ⟨kind, String.ofList taken, scanner.position + gap.length⟩)
      ⟨rest, scanner.position + gap.length + taken.length, scanner.ended⟩
  | secondPoint {gap taken rest : List Char} :
    scanner.rest = gap ++ (taken ++ '.' :: rest) → taken ≠ [] →
    Step scanner (.error (.malformedNumber (scanner.position + gap.length + taken.length)))
      ⟨'.' :: rest, scanner.position + gap.length + taken.length, scanner.ended⟩
  | unterminated {gap text : List Char} {quote : Char} :
    scanner.rest = gap ++ quote :: text →
    Step scanner (.error (.unterminatedString (scanner.position + gap.length)))
      ⟨[], scanner.position + gap.length + text.length + 1, scanner.ended⟩
  | unexpected {gap text : List Char} {symbol : Char} :
    scanner.rest = gap ++ symbol :: text → isBlank symbol = false →
    Reading.ofText symbol text = .unexpected →
    Step scanner (.error (.unexpectedSymbol symbol (scanner.position + gap.length)))
      ⟨symbol :: text, scanner.position + gap.length, scanner.ended⟩

/-- Every step is one of these. -/
theorem step_next (scanner : Scanner) : scanner.Step scanner.next.1 scanner.next.2 := by
  have hsplit := List.takeWhile_append_dropWhile (p := isBlank) (l := scanner.rest)
  have hgap : IsGap (scanner.rest.takeWhile isBlank) := fun c hc => List.mem_takeWhile_imp hc
  unfold next
  generalize scanner.rest.takeWhile isBlank = gap at hsplit hgap
  cases hdrop : scanner.rest.dropWhile isBlank with
  | nil =>
    rw [hdrop, List.append_nil] at hsplit
    rw [hsplit] at hgap ⊢
    exact .finish hgap
  | cons first text =>
    have hblank : isBlank first = false := by
      simpa [hdrop] using List.head?_dropWhile_not isBlank scanner.rest
    rw [hdrop] at hsplit
    have hdescribes := Reading.ofText_describes first text
    dsimp only
    cases hreading : Reading.ofText first text with
    | token kind taken rest =>
      rw [hreading] at hdescribes
      obtain ⟨htaken, hlongest, -⟩ := hdescribes
      exact .token (by rw [htaken, hsplit]) hlongest.1
    | unterminated => exact .unterminated hsplit.symm
    | secondPoint taken rest =>
      rw [hreading] at hdescribes
      obtain ⟨htaken, hlongest, hpoint⟩ := hdescribes
      obtain ⟨rest, rfl⟩ := List.head?_eq_some_iff.mp hpoint
      exact .secondPoint (by rw [htaken, hsplit]) hlongest.1.ne_nil
    | unexpected => exact .unexpected hsplit.symm hblank hreading

/-- At the end of a text, every step answers with the end of input. -/
theorem answer_nil (position : Nat) (ended : Bool) (steps : Nat) :
    (⟨[], position, ended⟩ : Scanner).answer steps = .ok ⟨.endOfInput, "", position⟩ := by
  cases steps with
  | zero => rfl
  | succ steps =>
    rw [answer_succ]
    exact answer_of_fixed rfl steps

/-- At a character that starts no token, every step answers with it. -/
theorem answer_unexpected {symbol : Char} {text : List Char} {position : Nat} {ended : Bool}
    (hblank : isBlank symbol = false) (hreading : Reading.ofText symbol text = .unexpected)
    (steps : Nat) :
    (⟨symbol :: text, position, ended⟩ : Scanner).answer steps =
      .error (.unexpectedSymbol symbol position) := by
  refine answer_of_fixed ?_ steps
  simp only [next, List.takeWhile_cons, List.dropWhile_cons, hblank, Bool.false_eq_true, if_false,
    hreading, List.length_nil, Nat.add_zero]

/-- A point starts no token. -/
theorem ofText_point (text : List Char) : Reading.ofText '.' text = .unexpected := by
  have hquote : ¬ IsQuote '.' := by simp [IsQuote]
  refine Reading.ofText_eq_iff_describes.mpr ⟨hquote, fun kind taken hlexeme hfront => ?_⟩
  obtain ⟨others, rfl, -⟩ := hlexeme.cons_of_prefix hfront
  have hall : ∀ entry ∈ symbols, entry.1.head? ≠ some '.' := by decide
  exact hall _ (hlexeme.of_other hquote (by decide) (by decide)) rfl

/-- What all later steps answer when one has answered so, in a text of some length. After a token it
depends on the text. -/
def decided? (length : Nat) : Except LexError Token → Option (Except LexError Token)
  | .ok token => if token.kind = .endOfInput then some (.ok ⟨.endOfInput, "", length⟩) else none
  | .error (.unexpectedSymbol symbol offset) => some (.error (.unexpectedSymbol symbol offset))
  | .error (.malformedNumber offset) => some (.error (.unexpectedSymbol '.' offset))
  | .error (.unterminatedString _) => some (.ok ⟨.endOfInput, "", length⟩)

/-- How many characters the text of a scanner has. -/
def size (scanner : Scanner) : Nat := scanner.position + scanner.rest.length

/-- The text of a new scanner is the whole text. -/
theorem size_ofText (source : String) : (Scanner.ofText source).size = source.length := by
  rw [size, ofText, Nat.zero_add, String.length_toList]

namespace Step

variable {scanner following : Scanner} {found : Except LexError Token}

/-- A step stays in the same text. -/
theorem size_eq (h : scanner.Step found following) : following.size = scanner.size := by
  cases h with
  | finish => simp [size]
  | token hrest | secondPoint hrest | unterminated hrest | unexpected hrest =>
    simp only [size, hrest, List.length_append, List.length_cons, List.length_nil]
    omega

/-- A step answers with something between where the scanner stands and where it will stand. -/
theorem offset_between (h : scanner.Step found following) :
    scanner.position ≤ offsetOf found ∧ offsetOf found ≤ following.position := by
  cases h <;> simp only [offsetOf, LexError.offset] <;> omega

/-- A step that takes a token moves beyond where the token starts. -/
theorem offset_lt {token : Token} (h : scanner.Step (.ok token) following)
    (hkind : token.kind ≠ .endOfInput) : token.offset < following.position := by
  cases h with
  | finish => exact absurd rfl hkind
  | token _ hlexeme =>
    have hlength := List.length_pos_iff.mpr hlexeme.ne_nil
    dsimp only
    omega

/-- The end of input is found at the end of the text. -/
theorem eq_endOfInput {token : Token} (h : scanner.Step (.ok token) following)
    (hkind : token.kind = .endOfInput) : token = ⟨.endOfInput, "", scanner.size⟩ := by
  cases h with
  | finish => rfl
  | token _ hlexeme => exact absurd hkind hlexeme.ne_endOfInput

/-- After an answer that decides the later ones, the following scanner gives these. -/
theorem answer_of_decided {final : Except LexError Token} (h : scanner.Step found following)
    (hfinal : decided? scanner.size found = some final) (steps : Nat) :
    following.answer steps = final := by
  cases h with
  | finish =>
    cases hfinal
    exact answer_nil _ true steps
  | token _ hlexeme =>
    rw [decided?, if_neg hlexeme.ne_endOfInput] at hfinal
    cases hfinal
  | secondPoint =>
    cases hfinal
    exact answer_unexpected (by decide) (ofText_point _) steps
  | unterminated hrest =>
    cases hfinal
    rw [answer_nil]
    simp only [size, hrest, List.length_append, List.length_cons, Except.ok.injEq, Token.mk.injEq,
      true_and]
    omega
  | unexpected _ hblank hreading =>
    cases hfinal
    exact answer_unexpected hblank hreading steps

/-- A step that leaves the later answers open takes characters. -/
theorem rest_length_lt (h : scanner.Step found following)
    (hopen : decided? scanner.size found = none) :
    following.rest.length < scanner.rest.length := by
  cases h with
  | finish | secondPoint | unterminated | unexpected => cases hopen
  | token hrest hlexeme =>
    have hlength := List.length_pos_iff.mpr hlexeme.ne_nil
    simp only [hrest, List.length_append]
    omega

end Step

/-- The answers that a scanner can settle on: the end of input, or a character that starts no
token. -/
def IsFinal (length : Nat) (found : Except LexError Token) : Prop :=
  found = .ok ⟨.endOfInput, "", length⟩ ∨
    ∃ symbol offset, found = .error (.unexpectedSymbol symbol offset)

/-- An answer that is decided is one to settle on. -/
theorem isFinal_of_decided {length : Nat} {found final : Except LexError Token}
    (h : decided? length found = some final) : IsFinal length final := by
  unfold decided? at h
  split at h
  · split at h
    · exact .inl (Option.some.inj h).symm
    · cases h
  · exact .inr ⟨_, _, (Option.some.inj h).symm⟩
  · exact .inr ⟨_, _, (Option.some.inj h).symm⟩
  · exact .inl (Option.some.inj h).symm

/-- After as many steps as there are characters left, all answers are the same final one. -/
theorem exists_isFinal {bound : Nat} {scanner : Scanner} (hbound : scanner.rest.length ≤ bound) :
    ∃ final, IsFinal scanner.size final ∧
      ∀ steps, bound ≤ steps → scanner.answer steps = final := by
  -- The induction is on a bound of what is left: a step decides the later answers, or takes
  -- characters.
  induction bound generalizing scanner with
  | zero =>
    obtain ⟨rest, position, ended⟩ := scanner
    obtain rfl := List.eq_nil_of_length_eq_zero (Nat.le_zero.mp hbound)
    exact ⟨_, .inl rfl, fun steps _ => answer_nil position ended steps⟩
  | succ bound ih =>
    have hstep := scanner.step_next
    have hlater : ∃ final, IsFinal scanner.size final ∧
        ∀ steps, bound ≤ steps → scanner.next.2.answer steps = final := by
      cases hdecided : decided? scanner.size scanner.next.1 with
      | some final =>
        exact ⟨final, isFinal_of_decided hdecided,
          fun steps _ => hstep.answer_of_decided hdecided steps⟩
      | none =>
        have hshorter := hstep.rest_length_lt hdecided
        rw [← hstep.size_eq]
        exact ih (by omega)
    obtain ⟨final, hfinal, hanswer⟩ := hlater
    refine ⟨final, hfinal, fun steps hsteps => ?_⟩
    obtain ⟨steps, rfl⟩ := Nat.exists_eq_add_of_le' (Nat.le_of_add_left_le hsteps)
    exact hanswer steps (Nat.le_of_succ_le_succ hsteps)

section Run

variable (scanner : Scanner)

/-- Every answer is that of a step from where the steps before it have left the scanner. -/
theorem step_answer (steps : Nat) :
    (scanner.after steps).Step (scanner.answer steps) (scanner.after (steps + 1)) := by
  rw [after_succ']
  exact (scanner.after steps).step_next

/-- All steps stay in the same text. -/
theorem size_after (steps : Nat) : (scanner.after steps).size = scanner.size := by
  induction steps with
  | zero => rfl
  | succ steps ih => rw [(scanner.step_answer steps).size_eq, ih]

/-- A scanner only moves forward. -/
theorem position_monotone : Monotone fun steps => (scanner.after steps).position := by
  refine monotone_nat_of_le_succ fun steps => ?_
  obtain ⟨hlow, hhigh⟩ := (scanner.step_answer steps).offset_between
  exact Nat.le_trans hlow hhigh

/-- An answer lies before where the scanner stands after any more steps. -/
theorem offsetOf_answer_le {steps later : Nat} (h : steps < later) :
    offsetOf (scanner.answer steps) ≤ (scanner.after later).position :=
  Nat.le_trans (scanner.step_answer steps).offset_between.2
    (scanner.position_monotone (Nat.succ_le_of_lt h))

/-- An answer that is decided is that of every later step. -/
theorem answer_of_decided {steps later : Nat} {final : Except LexError Token}
    (hfinal : decided? scanner.size (scanner.answer steps) = some final) (h : steps < later) :
    scanner.answer later = final := by
  obtain ⟨more, rfl⟩ := Nat.exists_eq_add_of_le (Nat.succ_le_of_lt h)
  rw [answer_add]
  refine (scanner.step_answer steps).answer_of_decided ?_ more
  rw [size_after]
  exact hfinal

end Run

/-- How the answers to one step after the other go on, in a text of some length. -/
structure Progresses (length : Nat) (answer : Nat → Except LexError Token) : Prop where
  /-- The offsets of the answers never decrease, errors included. -/
  ordered : ∀ i j, i ≤ j → offsetOf (answer i) ≤ offsetOf (answer j)
  /-- A token other than the end of input starts behind every token before it. -/
  apart : ∀ i j token token', i < j → answer i = .ok token → answer j = .ok token' →
    token'.kind ≠ .endOfInput → token.offset < token'.offset
  /-- No answer lies behind the end of the text. -/
  within : ∀ i, offsetOf (answer i) ≤ length
  /-- After as many steps as the text has characters, the answers do not change any more. -/
  settles : ∃ final, IsFinal length final ∧ ∀ i, length ≤ i → answer i = final
  /-- From the first end of input on there is only the end of input. -/
  afterEnd : ∀ i j token, i ≤ j → answer i = .ok token → token.kind = .endOfInput →
    answer j = .ok ⟨.endOfInput, "", length⟩
  /-- At a character that starts no token the scanner stays. -/
  afterUnexpected : ∀ i j symbol offset, i < j →
    answer i = .error (.unexpectedSymbol symbol offset) →
    answer j = .error (.unexpectedSymbol symbol offset)
  /-- A second point is met again as a character that starts no token. -/
  afterSecondPoint : ∀ i j offset, i < j → answer i = .error (.malformedNumber offset) →
    answer j = .error (.unexpectedSymbol '.' offset)
  /-- An unterminated string takes the rest of the text. -/
  afterUnterminated : ∀ i j offset, i < j → answer i = .error (.unterminatedString offset) →
    answer j = .ok ⟨.endOfInput, "", length⟩

end Scanner

open Scanner

/-- However often a scanner is asked for the next token of a text, errors included, its answers move
forward through the text and settle. -/
theorem progresses_answers (source : String) :
    Progresses source.length (Scanner.ofText source).answer := by
  generalize hscanner : Scanner.ofText source = scanner
  have hsize : scanner.size = source.length := hscanner ▸ size_ofText source
  have hlength : scanner.rest.length = source.length := hscanner ▸ String.length_toList
  have hdecided {i j : Nat} {final : Except LexError Token} (hij : i < j)
      (hfinal : decided? source.length (scanner.answer i) = some final) :
      scanner.answer j = final :=
    scanner.answer_of_decided (hsize ▸ hfinal) hij
  have hwithin (i : Nat) : (scanner.after i).position ≤ source.length := by
    rw [← hsize, ← scanner.size_after i]
    exact Nat.le_add_right _ _
  have hend {i : Nat} {token : Token} (htoken : scanner.answer i = .ok token)
      (hkind : token.kind = .endOfInput) :
      decided? source.length (scanner.answer i) = some (.ok ⟨.endOfInput, "", source.length⟩) := by
    rw [htoken, decided?, if_pos hkind]
  exact {
    ordered := by
      intro i j hij
      rcases Nat.eq_or_lt_of_le hij with rfl | hlt
      · exact Nat.le_refl _
      · exact Nat.le_trans (scanner.offsetOf_answer_le hlt)
          (scanner.step_answer j).offset_between.1
    apart := by
      intro i j token token' hij htoken htoken' hkind'
      have hkind : token.kind ≠ .endOfInput := by
        intro hkind
        rw [hdecided hij (hend htoken hkind)] at htoken'
        cases htoken'
        exact hkind' rfl
      have hstep := scanner.step_answer i
      rw [htoken] at hstep
      calc token.offset
        _ < (scanner.after (i + 1)).position := hstep.offset_lt hkind
        _ ≤ (scanner.after j).position := scanner.position_monotone hij
        _ ≤ offsetOf (scanner.answer j) := (scanner.step_answer j).offset_between.1
        _ = token'.offset := congrArg offsetOf htoken'
    within := fun i =>
      Nat.le_trans (scanner.offsetOf_answer_le (Nat.lt_succ_self i)) (hwithin _)
    settles := by
      rw [← hsize]
      exact exists_isFinal (hlength.trans hsize.symm).le
    afterEnd := by
      intro i j token hij htoken hkind
      rcases Nat.eq_or_lt_of_le hij with rfl | hlt
      · have hstep := scanner.step_answer i
        rw [htoken] at hstep
        rw [htoken, hstep.eq_endOfInput hkind, size_after, hsize]
      · exact hdecided hlt (hend htoken hkind)
    afterUnexpected := fun i j symbol offset hij hanswer =>
      hdecided hij (by rw [hanswer, decided?])
    afterSecondPoint := fun i j offset hij hanswer => hdecided hij (by rw [hanswer, decided?])
    afterUnterminated := fun i j offset hij hanswer => hdecided hij (by rw [hanswer, decided?]) }

end ScalarExpr
