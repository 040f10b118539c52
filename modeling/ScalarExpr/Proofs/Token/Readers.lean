import ScalarExpr.Proofs.Token.Lexeme
import Mathlib.Data.List.TakeWhile

/-!
# Readers take the longest lexeme

Each reader is told by the first character which lexemes can be at the front of the text, and so
which of them is the longest. A numeral also says whether a point follows it, since that is no token
and no fault of its own.
-/

namespace ScalarExpr

open Text

/-- Characters of a class at the front of a text are among the longest run of that class. -/
theorem prefix_takeWhile {α : Type} {p : α → Bool} {taken text : List α} (hfront : taken <+: text)
    (hclass : ∀ c ∈ taken, p c) : taken <+: text.takeWhile p := by
  obtain ⟨rest, rfl⟩ := hfront
  rw [List.takeWhile_append_of_pos hclass]
  exact List.prefix_append _ _

namespace Reading

/-- What a reading says of the lexemes at the front of a text. -/
def Describes (first : Char) (text : List Char) : Reading → Prop
  | token kind taken rest =>
    taken ++ rest = first :: text ∧ Longest kind taken (first :: text) ∧
      (kind = .number → rest.head? ≠ some '.')
  | unterminated => IsQuote first ∧ NoLexeme (first :: text)
  | secondPoint taken rest =>
    taken ++ rest = first :: text ∧ Longest .number taken (first :: text) ∧ rest.head? = some '.'
  | unexpected => ¬ IsQuote first ∧ NoLexeme (first :: text)

/-- A string ends at the first quote like the one that opens it. -/
theorem ofQuoted_describes {quote : Char} (text : List Char) (hquote : IsQuote quote) :
    (ofQuoted quote text).Describes quote text := by
  unfold ofQuoted
  split
  · next hdrop =>
    refine ⟨hquote, fun kind taken hlexeme hfront => ?_⟩
    obtain ⟨others, rfl, hothers⟩ := hlexeme.cons_of_prefix hfront
    obtain ⟨-, contents, rfl, -⟩ := hlexeme.of_quote hquote
    have hclose := List.dropWhile_eq_nil_iff.mp hdrop quote (hothers.subset (by simp))
    simp at hclose
  · next close rest hdrop =>
    have hsplit := List.takeWhile_append_dropWhile (p := (· ≠ quote)) (l := text)
    have hcontents : quote ∉ text.takeWhile (· ≠ quote) := by
      intro hmem
      simpa using List.mem_takeWhile_imp hmem
    have hclose : close = quote := by
      have hnot := List.head?_dropWhile_not (· ≠ quote) text
      rw [hdrop] at hnot
      simpa using hnot
    subst hclose
    rw [hdrop] at hsplit
    refine ⟨by simpa using hsplit, ⟨.string hquote hcontents, ?_, ?_⟩, by simp⟩
    · exact ⟨rest, by simpa using hsplit⟩
    · intro kind taken hlexeme hfront
      obtain ⟨others, rfl, hothers⟩ := hlexeme.cons_of_prefix hfront
      obtain ⟨-, contents, rfl, hnone⟩ := hlexeme.of_quote hquote
      have hrun : contents <+: text.takeWhile (· ≠ close) :=
        prefix_takeWhile ((List.prefix_append _ _).trans hothers) fun c hc => by
          simpa using fun heq : c = close => hnone (heq ▸ hc)
      have := hrun.length_le
      simp only [List.length_cons, List.length_append, List.length_nil]
      omega

/-- A lexeme at a digit has no more digits than the text there, and no more after its point than the
text has after its own. -/
theorem length_le_of_isDigit {first : Char} {text : List Char} (hfirst : first.isDigit)
    {kind : TokenKind} {taken : List Char} (hlexeme : Lexeme kind taken)
    (hfront : taken <+: first :: text) :
    taken.length ≤ ((first :: text).takeWhile Char.isDigit).length ∨
      ∃ after, (first :: text).dropWhile Char.isDigit = '.' :: after ∧ taken.length ≤
        ((first :: text).takeWhile Char.isDigit ++ '.' :: after.takeWhile Char.isDigit).length := by
  obtain ⟨others, rfl, -⟩ := hlexeme.cons_of_prefix hfront
  rcases (hlexeme.of_isDigit hfirst).2 with hdigits | ⟨digits, fraction, htaken, hdigits, hfraction⟩
  · exact .inl (prefix_takeWhile hfront hdigits).length_le
  · rw [htaken] at hfront ⊢
    obtain ⟨rest, hsplit⟩ := hfront
    have hpoint : ('.' : Char).isDigit = false := by decide
    refine .inr ⟨fraction ++ rest, ?_, ?_⟩
    · simp [← hsplit, List.dropWhile_append_of_pos hdigits, hpoint]
    · have hlength := (prefix_takeWhile (List.prefix_append fraction rest) hfraction).length_le
      simp only [← hsplit, List.append_assoc, List.cons_append,
        List.takeWhile_append_of_pos hdigits, List.takeWhile_cons, hpoint, List.length_append,
        List.length_cons, Bool.false_eq_true, if_false, List.length_nil]
      omega

section Numeral

variable {first : Char} {text : List Char}

/-- Where no point follows the digits, these are the longest token. -/
theorem longest_whole (hfirst : first.isDigit)
    (hpoint : ∀ after, (first :: text).dropWhile Char.isDigit ≠ '.' :: after) :
    Longest .number ((first :: text).takeWhile Char.isDigit) (first :: text) := by
  refine ⟨.whole (by simp [hfirst]) fun c hc => List.mem_takeWhile_imp hc,
    List.takeWhile_prefix _, fun kind taken hlexeme hfront => ?_⟩
  rcases length_le_of_isDigit hfirst hlexeme hfront with hle | ⟨after, hafter, -⟩
  · exact hle
  · exact absurd hafter (hpoint after)

/-- Where a point follows the digits, these, the point and the digits after it are the longest
token. -/
theorem longest_decimal (hfirst : first.isDigit) {after : List Char}
    (hdrop : (first :: text).dropWhile Char.isDigit = '.' :: after) :
    Longest .number ((first :: text).takeWhile Char.isDigit ++ '.' :: after.takeWhile Char.isDigit)
      (first :: text) := by
  refine ⟨.decimal (by simp [hfirst]) (fun c hc => List.mem_takeWhile_imp hc)
    fun c hc => List.mem_takeWhile_imp hc, ?_, fun kind taken hlexeme hfront => ?_⟩
  · have hsplit := List.takeWhile_append_dropWhile (p := Char.isDigit) (l := first :: text)
    have hfraction : '.' :: after.takeWhile Char.isDigit <+: '.' :: after :=
      (List.prefix_cons_inj _).mpr (List.takeWhile_prefix _)
    rw [hdrop] at hsplit
    have hfront := (List.prefix_append_right_inj
      ((first :: text).takeWhile Char.isDigit)).mpr hfraction
    rwa [hsplit] at hfront
  · rcases length_le_of_isDigit hfirst hlexeme hfront with hle | ⟨after', hafter, hle⟩
    · rw [List.length_append]
      exact Nat.le_add_right_of_le hle
    · rw [hdrop] at hafter
      cases hafter
      exact hle

/-- A numeral takes all digits, one point after them, and all digits after the point. -/
theorem ofNumeral_describes (text : List Char) (hfirst : first.isDigit) :
    (ofNumeral (first :: text)).Describes first text := by
  have hsplit := List.takeWhile_append_dropWhile (p := Char.isDigit) (l := first :: text)
  unfold ofNumeral
  dsimp only
  split
  · next after hdrop =>
    have hlongest := longest_decimal hfirst hdrop
    have hsplit' := List.takeWhile_append_dropWhile (p := Char.isDigit) (l := after)
    have htaken : ((first :: text).takeWhile Char.isDigit ++ '.' :: after.takeWhile Char.isDigit) ++
        after.dropWhile Char.isDigit = first :: text := by
      rw [List.append_assoc, List.cons_append, hsplit', ← hdrop, hsplit]
    split
    · next rest hrest => exact ⟨hrest ▸ htaken, hlongest, rfl⟩
    · next hpoint =>
      refine ⟨htaken, hlongest, fun _ hhead => ?_⟩
      obtain ⟨rest, hrest⟩ := List.head?_eq_some_iff.mp hhead
      exact hpoint rest hrest
  · next hpoint =>
    refine ⟨hsplit, longest_whole hfirst hpoint, fun _ hhead => ?_⟩
    obtain ⟨after, hafter⟩ := List.head?_eq_some_iff.mp hhead
    exact hpoint after hafter

end Numeral

/-- An identifier takes all characters that may continue it. -/
theorem ofName_describes {first : Char} (text : List Char) (hfirst : startsName first) :
    (token .identifier (first :: text.takeWhile continuesName)
      (text.dropWhile continuesName)).Describes first text := by
  have hsplit := List.takeWhile_append_dropWhile (p := continuesName) (l := text)
  have hall : ∀ c ∈ text.takeWhile continuesName, continuesName c :=
    fun c hc => List.mem_takeWhile_imp hc
  refine ⟨by rw [List.cons_append, hsplit], ⟨.identifier hfirst hall, ?_, ?_⟩, by simp⟩
  · exact ⟨text.dropWhile continuesName, by rw [List.cons_append, hsplit]⟩
  · intro kind taken hlexeme hfront
    obtain ⟨others, rfl, hothers⟩ := hlexeme.cons_of_prefix hfront
    obtain ⟨-, hcontinues⟩ := hlexeme.of_startsName hfirst
    simpa using (prefix_takeWhile hothers hcontinues).length_le

/-- The symbols of one character are those that have a kind of their own. -/
theorem single_mem_symbols {kind : TokenKind} {c : Char} :
    ([c], kind) ∈ symbols ↔ symbolKind? c = some kind := by
  constructor
  · intro hmem
    have hall : ∀ entry ∈ symbols, entry.1.length = 1 →
        entry.1.head?.bind symbolKind? = some entry.2 := by
      decide
    exact hall _ hmem rfl
  · intro h
    unfold symbolKind? at h
    split at h <;> cases h <;> decide

/-- The symbols of two characters are those that have a kind as a pair. -/
theorem pair_mem_symbols {kind : TokenKind} {c d : Char} :
    ([c, d], kind) ∈ symbols ↔ pairKind? c d = some kind := by
  constructor
  · intro hmem
    have hall : ∀ entry ∈ symbols, entry.1.length = 2 →
        (entry.1.head?.bind fun c => entry.1.getLast?.bind (pairKind? c)) = some entry.2 := by
      decide
    exact hall _ hmem rfl
  · intro h
    unfold pairKind? at h
    split at h <;> cases h <;> decide

/-- A symbol is no numeral. -/
theorem ne_number_of_symbol {kind : TokenKind} {chars : List Char} (h : (chars, kind) ∈ symbols) :
    kind ≠ .number := by
  have hall : ∀ entry ∈ symbols, entry.2 ≠ .number := by decide
  exact hall _ h

/-- Where no pair of characters makes a symbol, the first of them does or nothing. -/
theorem single_describes {first : Char} {text : List Char} (hquote : ¬ IsQuote first)
    (hdigit : first.isDigit = false) (hname : startsName first = false)
    (hpair : ∀ second rest, text = second :: rest → pairKind? first second = none) :
    (match symbolKind? first with
      | some kind => token kind [first] text
      | none => unexpected).Describes first text := by
  have honly : ∀ {kind taken}, Lexeme kind taken → taken <+: first :: text →
      taken = [first] ∧ symbolKind? first = some kind := by
    intro kind taken hlexeme hfront
    obtain ⟨others, rfl, hothers⟩ := hlexeme.cons_of_prefix hfront
    have hmem := hlexeme.of_other hquote hdigit hname
    cases others with
    | nil => exact ⟨rfl, single_mem_symbols.mp hmem⟩
    | cons second others =>
      have hlength := (first_of_symbol hmem).1
      obtain rfl : others = [] := List.eq_nil_of_length_eq_zero (by simpa using hlength)
      obtain ⟨rest, rfl⟩ := hothers
      have hnone := hpair second rest rfl
      rw [pair_mem_symbols.mp hmem] at hnone
      cases hnone
  split
  · next kind hkind =>
    refine ⟨rfl, ⟨.symbol (single_mem_symbols.mpr hkind), ⟨text, rfl⟩, ?_⟩, ?_⟩
    · intro kind' taken hlexeme hfront
      rw [(honly hlexeme hfront).1]
    · rintro rfl
      exact absurd rfl (ne_number_of_symbol (single_mem_symbols.mpr hkind))
  · next hnone =>
    refine ⟨hquote, fun kind taken hlexeme hfront => ?_⟩
    rw [(honly hlexeme hfront).2] at hnone
    cases hnone

/-- A symbol takes two characters if they make one. -/
theorem ofSymbol_describes {first : Char} (text : List Char) (hquote : ¬ IsQuote first)
    (hdigit : first.isDigit = false) (hname : startsName first = false) :
    (ofSymbol first text).Describes first text := by
  unfold ofSymbol
  dsimp only
  split
  · exact single_describes hquote hdigit hname (by simp)
  · next second rest =>
    split
    · next kind hkind =>
      have hmem := pair_mem_symbols.mpr hkind
      refine ⟨rfl, ⟨.symbol hmem, ⟨rest, rfl⟩, ?_⟩, ?_⟩
      · intro kind' taken hlexeme hfront
        obtain ⟨others, rfl, -⟩ := hlexeme.cons_of_prefix hfront
        exact (first_of_symbol (hlexeme.of_other hquote hdigit hname)).1
      · rintro rfl
        exact absurd rfl (ne_number_of_symbol hmem)
    · next hnone =>
      refine single_describes hquote hdigit hname fun second' rest' heq => ?_
      cases heq
      exact hnone

/-- A reading says of the front of a text what is true of it. -/
theorem ofText_describes (first : Char) (text : List Char) :
    (ofText first text).Describes first text := by
  unfold ofText
  split
  · next hquote => exact ofQuoted_describes text hquote
  · next hquote =>
    split
    · next hdigit => exact ofNumeral_describes text hdigit
    · next hdigit =>
      split
      · next hname => exact ofName_describes text hname
      · next hname =>
        exact ofSymbol_describes text hquote (by simpa using hdigit) (by simpa using hname)

/-- Two tokens that are the longest split the text alike. -/
theorem eq_of_longest {kind kind' : TokenKind} {taken taken' rest rest' text : List Char}
    (hsplit : taken ++ rest = text) (hsplit' : taken' ++ rest' = text)
    (hlongest : Longest kind taken text) (hlongest' : Longest kind' taken' text) :
    kind = kind' ∧ taken = taken' ∧ rest = rest' := by
  obtain ⟨rfl, rfl⟩ := hlongest.unique hlongest'
  exact ⟨rfl, rfl, List.append_cancel_left (hsplit.trans hsplit'.symm)⟩

/-- What is said of the front of a text is true of one reading only. -/
theorem Describes.unique {first : Char} {text : List Char} {reading reading' : Reading}
    (h : reading.Describes first text) (h' : reading'.Describes first text) :
    reading = reading' := by
  cases reading with
  | token kind taken rest =>
    obtain ⟨hsplit, hlongest, hpoint⟩ := h
    cases reading' with
    | token kind' taken' rest' =>
      obtain ⟨hsplit', hlongest', -⟩ := h'
      obtain ⟨rfl, rfl, rfl⟩ := eq_of_longest hsplit hsplit' hlongest hlongest'
      rfl
    | secondPoint taken' rest' =>
      obtain ⟨hsplit', hlongest', hpoint'⟩ := h'
      obtain ⟨rfl, rfl, rfl⟩ := eq_of_longest hsplit hsplit' hlongest hlongest'
      exact absurd hpoint' (hpoint rfl)
    | unterminated => exact absurd h'.2 hlongest.not_noLexeme
    | unexpected => exact absurd h'.2 hlongest.not_noLexeme
  | secondPoint taken rest =>
    obtain ⟨hsplit, hlongest, hpoint⟩ := h
    cases reading' with
    | token kind' taken' rest' =>
      obtain ⟨hsplit', hlongest', hpoint'⟩ := h'
      obtain ⟨rfl, rfl, rfl⟩ := eq_of_longest hsplit hsplit' hlongest hlongest'
      exact absurd hpoint (hpoint' rfl)
    | secondPoint taken' rest' =>
      obtain ⟨hsplit', hlongest', -⟩ := h'
      obtain ⟨-, rfl, rfl⟩ := eq_of_longest hsplit hsplit' hlongest hlongest'
      rfl
    | unterminated => exact absurd h'.2 hlongest.not_noLexeme
    | unexpected => exact absurd h'.2 hlongest.not_noLexeme
  | unterminated =>
    cases reading' with
    | token => exact absurd h.2 h'.2.1.not_noLexeme
    | secondPoint => exact absurd h.2 h'.2.1.not_noLexeme
    | unterminated => rfl
    | unexpected => exact absurd h.1 h'.1
  | unexpected =>
    cases reading' with
    | token => exact absurd h.2 h'.2.1.not_noLexeme
    | secondPoint => exact absurd h.2 h'.2.1.not_noLexeme
    | unterminated => exact absurd h'.1 h.1
    | unexpected => rfl

/-- A text reads as what is true of its front. -/
theorem ofText_eq_iff_describes {first : Char} {text : List Char} {reading : Reading} :
    ofText first text = reading ↔ reading.Describes first text := by
  constructor
  · rintro rfl
    exact ofText_describes first text
  · exact (ofText_describes first text).unique

end Reading

end ScalarExpr
