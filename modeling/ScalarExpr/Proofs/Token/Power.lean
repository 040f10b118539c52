import ScalarExpr.Proofs.Number.Digits
import ScalarExpr.Proofs.Token.Sole

/-!
# Numerals with a power of ten

The scanner knows no exponents. A numeral with a point ends where its digits do, so that the mark of a
power of ten starts an identifier. The digits of the power go on with this identifier, unless there is a
minus between them.
-/

namespace ScalarExpr

open Binary64 Numeral Text

variable {digits fraction rest : List Char}

/-- What is no digit ends a numeral with a point. -/
theorem longest_of_startsNoDigit (hne : digits ≠ []) (hdigits : AreDigits digits)
    (hfraction : AreDigits fraction) (hrest : StartsNoDigit rest) :
    Longest .number (digits ++ '.' :: fraction) (digits ++ '.' :: fraction ++ rest) := by
  obtain ⟨first, others, rfl⟩ := List.exists_cons_of_ne_nil hne
  have hpoint : StartsNoDigit ('.' :: (fraction ++ rest)) := by
    rintro c ⟨⟩
    rfl
  have hwhole := spanDigits_append hdigits hpoint
  have htake : (first :: others ++ '.' :: (fraction ++ rest)).takeWhile Char.isDigit =
      first :: others := congrArg Prod.fst hwhole
  have hbehind : (fraction ++ rest).takeWhile Char.isDigit = fraction :=
    congrArg Prod.fst (spanDigits_append hfraction hrest)
  have hlongest := @Reading.longest_decimal first (others ++ '.' :: (fraction ++ rest))
    (hdigits first List.mem_cons_self) (fraction ++ rest) (congrArg Prod.snd hwhole)
  rw [← List.cons_append, htake, hbehind] at hlongest
  rw [List.append_assoc]
  exact hlongest

/-- Digits go on with a name. -/
theorem continuesName_of_areDigits (hdigits : AreDigits digits) : ∀ c ∈ digits, continuesName c := by
  intro c hc
  simp [continuesName, isNumeric_of_isDigit (hdigits c hc)]

/-- A power of ten is taken as an identifier, and perhaps more tokens. -/
theorem exists_munches_power (power : Int) (position : Nat) :
    ∃ name words stop, Munches position ('E' :: exponentDigits false power)
      (.ok (⟨.identifier, name, position⟩ :: words ++ [⟨.endOfInput, "", stop⟩])) := by
  have hdigits := areDigits_toDigits power.natAbs
  have hne : Nat.toDigits 10 power.natAbs ≠ [] := Nat.toDigits_ne_nil
  have hmark : startsName 'E' := by decide
  by_cases hnegative : power < 0
  · have hname := (Reading.ofName_describes ('-' :: Nat.toDigits 10 power.natAbs) hmark).2.1
    have hminus : Longest .minus ['-'] ('-' :: Nat.toDigits 10 power.natAbs) :=
      longest_of_symbol (by decide) (by decide) _
    have hend := @Munches.lexeme_front .number (Nat.toDigits 10 power.natAbs) [] _ (position + 2)
      (.whole hne hdigits) nofun .stop
    rw [List.append_nil] at hend
    have hstop : continuesName '-' = false := by decide
    rw [List.takeWhile_cons, hstop, if_neg Bool.false_ne_true] at hname
    rw [exponentDigits, if_pos hnegative]
    exact ⟨_, [⟨.minus, "-", position + 1⟩, ⟨.number, _, position + 2⟩], _,
      .token (by decide) rfl hname nofun (.token (by decide) rfl hminus nofun hend)⟩
  · have hname : Lexeme .identifier ('E' :: Nat.toDigits 10 power.natAbs) :=
      .identifier hmark (continuesName_of_areDigits hdigits)
    have hend := @Munches.lexeme_front .identifier _ [] _ position hname nofun .stop
    rw [List.append_nil] at hend
    rw [exponentDigits, if_neg hnegative, if_neg Bool.false_ne_true]
    exact ⟨_, [], _, hend⟩

/-- A numeral with a point and a power of ten behind it is a numeral and an identifier, and perhaps more
tokens. -/
theorem exists_tokenize_power {source : String} {negative : Bool} {power : Int} (hne : digits ≠ [])
    (hdigits : AreDigits digits) (hfraction : AreDigits fraction)
    (hsource : source.toList =
      signed negative (digits ++ '.' :: fraction ++ 'E' :: exponentDigits false power)) :
    ∃ name words stop, tokenize source = .ok (signTokens negative 0 ++
      ⟨.number, String.ofList (digits ++ '.' :: fraction), negative.toNat⟩ ::
      ⟨.identifier, name, negative.toNat + (digits ++ '.' :: fraction).length⟩ :: words ++
      [⟨.endOfInput, "", stop⟩]) := by
  have hmark : StartsNoDigit ('E' :: exponentDigits false power) := by
    rintro c ⟨⟩
    rfl
  have hlongest := longest_of_startsNoDigit hne hdigits hfraction hmark
  have hpoint : ('E' :: exponentDigits false power).head? ≠ some '.' := nofun
  obtain ⟨name, words, stop, hpower⟩ :=
    exists_munches_power power (negative.toNat + (digits ++ '.' :: fraction).length)
  obtain ⟨first, others, rfl⟩ := List.exists_cons_of_ne_nil hne
  have hblank : isBlank first = false := (Lexeme.whole hne hdigits).not_isBlank_first
  refine ⟨name, words, stop, Munches.iff_tokenize.mp ?_⟩
  rw [hsource, List.append_assoc (signTokens negative 0)]
  refine Munches.signed negative ?_
  rw [Nat.zero_add]
  exact .token hblank rfl hlongest (fun _ => hpoint) hpower

end ScalarExpr
