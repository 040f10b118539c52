import ScalarExpr.Proofs.Diagnostic.Numeral
import ScalarExpr.Proofs.Number.Plain
import ScalarExpr.Proofs.Token.Power

/-!
# Evaluating the texts of doubles

Positional text is a numeral, perhaps behind a minus, and evaluates to its double. In any other text of a
finite double a power of ten follows the numeral, which no expression goes on with. The names of the other
doubles are identifiers, which stand for themselves and have no negation.
-/

namespace ScalarExpr

open Binary64 Numeral

section Shape

variable {digits : List Char} {leading : Int}

/-- Positional text is digits with a point among them. -/
theorem exists_positional_eq (hne : digits ≠ []) (hdigits : AreDigits digits) (leading : Int) :
    ∃ whole fraction, whole ≠ [] ∧ AreDigits whole ∧ AreDigits fraction ∧
      positional digits leading = whole ++ '.' :: fraction := by
  unfold positional
  split
  · exact ⟨['0'], _, List.cons_ne_nil _ _, areDigits_replicate 1,
      (areDigits_replicate _).append hdigits, rfl⟩
  · have hsplit := List.take_append_drop (leading.toNat + 1) digits
    obtain ⟨hfront, hback⟩ := AreDigits.of_append (hsplit.symm ▸ hdigits)
    refine ⟨_, _, ?_, hfront.append (areDigits_replicate _), ?_, rfl⟩
    · simp [hne]
    · split
      · exact areDigits_replicate 1
      · exact hback

/-- Scientific text is digits with a point among them, and a power of ten behind them. -/
theorem exists_scientific_eq (hne : digits ≠ []) (hdigits : AreDigits digits) (leading : Int) :
    ∃ whole fraction, whole ≠ [] ∧ AreDigits whole ∧ AreDigits fraction ∧
      canonicalLayout.scientific digits leading =
        whole ++ '.' :: fraction ++ 'E' :: exponentDigits false leading := by
  obtain ⟨first, others, rfl⟩ := List.exists_cons_of_ne_nil hne
  obtain ⟨hfirst, hothers⟩ := @AreDigits.of_append [first] others hdigits
  cases others with
  | nil => exact ⟨[first], ['0'], List.cons_ne_nil _ _, hfirst, areDigits_replicate 1, rfl⟩
  | cons second others => exact ⟨[first], second :: others, List.cons_ne_nil _ _, hfirst, hothers, rfl⟩

end Shape

section Finite

variable {x : Float} {negative : Bool} {mantissa step : Nat}

/-- The text of a finite double is that of its size, with a minus in front of it if it is negative. -/
theorem toList_text_float (h : decode x = .finite negative mantissa step) :
    (Value.number (.float x)).text.toList =
      signed negative (canonicalLayout.magnitude mantissa step) := by
  show (canonicalText x).toList = _
  rw [canonicalText, h, String.toList_ofList]

/-- The text of a size other than zero is that of its shortest decimal. -/
theorem magnitude_eq (hzero : mantissa ≠ 0) :
    canonicalLayout.magnitude mantissa step = (shortest .up mantissa step).canonicalText :=
  if_neg hzero

/-- The text of the size of a finite double is read as this size. -/
theorem readDecimal?_magnitude (h : decode x = .finite negative mantissa step) :
    readDecimal? (canonicalLayout.magnitude mantissa step) = some x.abs := by
  have hsize : decode x.abs = .finite false mantissa step := by
    rw [decode_abs, h]
    rfl
  have hread := readDecimal?_canonicalText hsize
  rwa [canonicalText, hsize, String.toList_ofList] at hread

/-- The text of the size of a plain double is digits with a point among them. -/
theorem exists_magnitude_eq (h : decode x = .finite negative mantissa step) (hplain : IsPlain x) :
    ∃ whole fraction, whole ≠ [] ∧ AreDigits whole ∧ AreDigits fraction ∧
      canonicalLayout.magnitude mantissa step = whole ++ '.' :: fraction := by
  rw [isPlain_iff h] at hplain
  by_cases hzero : mantissa = 0
  · rw [Layout.magnitude, if_pos hzero]
    exact ⟨['0'], ['0'], List.cons_ne_nil _ _, areDigits_replicate 1, areDigits_replicate 1, rfl⟩
  · rw [magnitude_eq hzero, Decimal.canonicalText, if_pos (hplain.resolve_left hzero)]
    exact exists_positional_eq Nat.toDigits_ne_nil (areDigits_toDigits _) _

/-- The text of the size of any other finite double is digits with a point among them, and a power of ten
behind them. -/
theorem exists_magnitude_eq_power (h : decode x = .finite negative mantissa step)
    (hplain : ¬ IsPlain x) :
    ∃ whole fraction power, whole ≠ [] ∧ AreDigits whole ∧ AreDigits fraction ∧
      canonicalLayout.magnitude mantissa step =
        whole ++ '.' :: fraction ++ 'E' :: exponentDigits false power := by
  rw [isPlain_iff h, not_or] at hplain
  rw [magnitude_eq hplain.1, Decimal.canonicalText, if_neg hplain.2]
  obtain ⟨whole, fraction, hshape⟩ := exists_scientific_eq Nat.toDigits_ne_nil
    (areDigits_toDigits (shortest .up mantissa step).significand) (shortest .up mantissa step).leading
  exact ⟨whole, fraction, _, hshape⟩

/-- The text of a plain double evaluates to the double. -/
theorem evaluate_text_of_isPlain (h : decode x = .finite negative mantissa step) (hplain : IsPlain x) :
    evaluate (Value.number (.float x)).text = .ok (.number (.float x)) := by
  obtain ⟨whole, fraction, hne, hwhole, hfraction, htext⟩ := exists_magnitude_eq h hplain
  have hsource := toList_text_float h
  have hread := readDecimal?_magnitude h
  rw [htext] at hsource hread
  have hvalue : Number.ofNumeral? (whole ++ '.' :: fraction) = some (.float x.abs) := by
    rw [Number.ofNumeral?, if_pos (by simp), hread, Option.map_some]
  rw [evaluate_of_numeral (.decimal hne hwhole hfraction) hsource hvalue]
  cases negative with
  | true => exact congrArg (fun y => Except.ok (Value.number (.float y))) (eq_of_abs h)
  | false => exact congrArg (fun y => Except.ok (Value.number (.float y))) (eq_of_abs h)

/-- A text with a power of ten behind its numeral is refused where the power starts. -/
theorem evaluate_of_power {source : String} {digits fraction : List Char} {power : Int}
    (hne : digits ≠ []) (hdigits : AreDigits digits) (hfraction : AreDigits fraction)
    (hsource : source.toList =
      signed negative (digits ++ '.' :: fraction ++ 'E' :: exponentDigits false power)) :
    ∃ name, evaluate source = .error ⟨.parse, "Unexpected token after expression: " ++ name,
      negative.toNat + (digits ++ '.' :: fraction).length, some source⟩ := by
  obtain ⟨name, words, stop, htokens⟩ := exists_tokenize_power hne hdigits hfraction hsource
  let mark : Token :=
    ⟨.identifier, name, negative.toNat + (digits ++ '.' :: fraction).length⟩
  have hreads := @Parse.reads_numeral ⟨.standard, stop⟩ 0 negative (digits ++ '.' :: fraction) 0 rfl
    (mark :: words)
  rw [Parse.numeralResult, Number.ofNumeral?_of_point hne hdigits hfraction, Nat.zero_add] at hreads
  have hparse := @TokenStream.parse_of_reads_before .standard ⟨_, stop⟩ _ _ _
    (hreads.conditional_of_unary (Parse.endsChain_cons 0 rfl) rfl)
  have htree := Expr.ofSource_of_tokenize htokens
  rw [hparse] at htree
  refine ⟨name, ?_⟩
  rw [evaluate_eq_evaluateWith, evaluateWith_of_ofSource_error htree]
  rfl

/-- The text of a finite double that is not plain is refused by the parser. -/
theorem evaluate_text_of_not_isPlain (h : decode x = .finite negative mantissa step)
    (hplain : ¬ IsPlain x) :
    ∃ diagnostic, evaluate (Value.number (.float x)).text = .error diagnostic ∧
      diagnostic.stage = .parse := by
  obtain ⟨whole, fraction, power, hne, hwhole, hfraction, htext⟩ := exists_magnitude_eq_power h hplain
  have hsource := toList_text_float h
  rw [htext] at hsource
  obtain ⟨name, herror⟩ := evaluate_of_power hne hwhole hfraction hsource
  exact ⟨_, herror, rfl⟩

end Finite

/-- The names of NaN and of infinity are names of no variable, and stand for themselves. -/
theorem evaluate_names :
    evaluate "NaN" = .ok (.string "NaN") ∧ evaluate "Infinity" = .ok (.string "Infinity") :=
  ⟨by decide +kernel, by decide +kernel⟩

/-- A name that stands for itself is a string, which has no negation. -/
theorem evaluate_negated_name :
    evaluate "-Infinity" =
      .error ⟨.type, "Unary - requires numeric operand, got string", 0, some "-Infinity"⟩ := by
  have htree : Expr.ofSource "-Infinity" = .ok (.unary .minus (.identifier "Infinity" 1) 0) := by
    decide +kernel
  rw [evaluate_eq_evaluateWith, evaluateWith_of_ofSource htree]
  rfl

/-- The text of a double evaluates to this double if the double is plain, and to no double otherwise. The
parser refuses the text of any other finite double, NaN and infinity evaluate to their names, and negative
infinity is no operand of a minus. -/
theorem evaluate_float_texts (x : Float) :
    let text := (Value.number (.float x)).text
    (IsPlain x → evaluate text = .ok (.number (.float x))) ∧
    (¬ IsPlain x →
      (∀ y, evaluate text ≠ .ok (.number (.float y))) ∧
      match decode x with
      | .finite _ _ _ => ∃ diagnostic, evaluate text = .error diagnostic ∧ diagnostic.stage = .parse
      | .nan | .infinity false => evaluate text = .ok (.string text)
      | .infinity true => ∃ diagnostic, evaluate text = .error diagnostic ∧ diagnostic.stage = .type) := by
  intro text
  cases hunits : units? x with
  | none =>
    have hplain := not_isPlain_of_units? hunits
    refine ⟨fun h => absurd h hplain, fun _ => ?_⟩
    rcases nonfinite_cases hunits with ⟨hdecode, htext⟩ | ⟨hdecode, htext⟩ | ⟨hdecode, htext⟩
    · have hvalue : evaluate text = .ok (.string text) := by
        rw [show text = "NaN" from htext]
        exact evaluate_names.1
      rw [hdecode]
      exact ⟨fun _ hfloat => (nomatch hvalue.symm.trans hfloat), hvalue⟩
    · have hvalue : evaluate text = .ok (.string text) := by
        rw [show text = "Infinity" from htext]
        exact evaluate_names.2
      rw [hdecode]
      exact ⟨fun _ hfloat => (nomatch hvalue.symm.trans hfloat), hvalue⟩
    · have herror := evaluate_negated_name
      rw [← show text = "-Infinity" from htext] at herror
      rw [hdecode]
      exact ⟨fun _ hfloat => (nomatch herror.symm.trans hfloat), _, herror, rfl⟩
  | some units =>
    obtain ⟨negative, mantissa, step, hdecode⟩ := exists_decode_of_units? hunits
    refine ⟨evaluate_text_of_isPlain hdecode, fun hplain => ?_⟩
    obtain ⟨diagnostic, herror, hstage⟩ := evaluate_text_of_not_isPlain hdecode hplain
    rw [hdecode]
    exact ⟨fun _ hfloat => (nomatch herror.symm.trans hfloat), diagnostic, herror, hstage⟩

/-- Just below ten million a double is plain, and ten million is not. -/
theorem evaluate_float_texts_at_bound :
    evaluate (Value.number (.float (-9999999.5))).text = .ok (.number (.float (-9999999.5))) ∧
      (∀ y, evaluate (Value.number (.float 1e7)).text ≠ .ok (.number (.float y))) ∧
      evaluate (Value.number (.float nan)).text = .ok (.string (Value.number (.float nan)).text) := by
  have hplain : IsPlain (-9999999.5) := by decide
  have hlarge : ¬ IsPlain 1e7 := by decide
  have hnan : ¬ IsPlain nan := by decide
  refine ⟨(evaluate_float_texts _).1 hplain, ((evaluate_float_texts _).2 hlarge).1, ?_⟩
  have hname := ((evaluate_float_texts nan).2 hnan).2
  rwa [show decode nan = .nan from rfl] at hname

end ScalarExpr
