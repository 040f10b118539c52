import ScalarExpr.Token.Scanner

/-!
# Lexemes

Which characters make up a token of which kind, said without a reader. A lexeme is one of the
longest at the front of a text if no lexeme of any kind is longer there.

The first character of a lexeme decides its kind, except among the symbols, which are few enough to
be listed. So at most one token is the longest.
-/

namespace ScalarExpr

open Text

/-- The fixed symbols, and the kinds of their tokens. -/
def symbols : List (List Char × TokenKind) :=
  [(['+'], .plus), (['-'], .minus), (['*'], .star), (['/'], .slash), (['%'], .percent),
    (['('], .leftParen), ([')'], .rightParen), (['?'], .question), ([':'], .colon),
    (['!'], .not), (['>'], .greater), (['<'], .less),
    (['!', '='], .notEqual), (['>', '='], .greaterEqual), (['<', '='], .lessEqual),
    (['=', '='], .equal), (['&', '&'], .and), (['|', '|'], .or)]

/-- Whether a character opens a string, and closes one that it has opened. -/
def IsQuote (c : Char) : Prop := c = '"' ∨ c = '\''

/-- The characters that make up a token of a kind. -/
inductive Lexeme : TokenKind → List Char → Prop
  | identifier {first : Char} {others : List Char} :
    startsName first → (∀ c ∈ others, continuesName c) → Lexeme .identifier (first :: others)
  | whole {digits : List Char} :
    digits ≠ [] → (∀ c ∈ digits, c.isDigit) → Lexeme .number digits
  | decimal {digits fraction : List Char} :
    digits ≠ [] → (∀ c ∈ digits, c.isDigit) → (∀ c ∈ fraction, c.isDigit) →
    Lexeme .number (digits ++ '.' :: fraction)
  | string {quote : Char} {contents : List Char} :
    IsQuote quote → quote ∉ contents → Lexeme .string (quote :: (contents ++ [quote]))
  | symbol {kind : TokenKind} {chars : List Char} : (chars, kind) ∈ symbols → Lexeme kind chars

/-- A lexeme at the front of a text, where none is longer. -/
def Longest (kind : TokenKind) (taken text : List Char) : Prop :=
  Lexeme kind taken ∧ taken <+: text ∧
    ∀ kind' taken', Lexeme kind' taken' → taken' <+: text → taken'.length ≤ taken.length

/-- No lexeme is at the front of a text. -/
def NoLexeme (text : List Char) : Prop := ∀ kind taken, Lexeme kind taken → ¬ taken <+: text

section Characters

variable {c : Char}

/-- A quote is no digit. -/
theorem IsQuote.not_isDigit (h : IsQuote c) : c.isDigit = false := by
  rcases h with rfl | rfl <;> decide

/-- A quote starts no name. -/
theorem IsQuote.not_startsName (h : IsQuote c) : startsName c = false := by
  rcases h with rfl | rfl <;> decide

/-- A digit starts no name. -/
theorem not_startsName_of_isDigit (h : c.isDigit) : startsName c = false := by
  have hlow : c.toNat < 0x41 := by
    have hrange : 0x30 ≤ c.toNat ∧ c.toNat ≤ 0x39 := by
      simpa [Char.isDigit, UInt32.le_iff_toNat_le] using h
    omega
  have hletter : isAlphabetic c = false := by
    unfold isAlphabetic alphabetic
    rw [Ranges.contains, if_pos hlow]
  have hunderscore : c ≠ '_' := by
    rintro rfl
    exact absurd hlow (by decide)
  simp [startsName, hletter, hunderscore]

/-- A symbol has one or two characters, the first of which starts nothing else. -/
theorem first_of_symbol {kind : TokenKind} {chars : List Char} (h : (chars, kind) ∈ symbols) :
    chars.length ≤ 2 ∧ ∃ first others, chars = first :: others ∧ first ≠ '"' ∧ first ≠ '\'' ∧
      first.isDigit = false ∧ startsName first = false := by
  have hall : ∀ entry ∈ symbols, entry.1.length ≤ 2 ∧ entry.1.head?.any fun first =>
      first ≠ '"' ∧ first ≠ '\'' ∧ first.isDigit = false ∧ startsName first = false := by
    decide
  obtain ⟨hlength, hany⟩ := hall _ h
  obtain ⟨first, hfirst, hother⟩ := (Option.any_eq_true _ _).mp hany
  obtain ⟨others, rfl⟩ := List.head?_eq_some_iff.mp hfirst
  exact ⟨hlength, first, others, rfl, of_decide_eq_true hother⟩

end Characters

namespace Lexeme

variable {kind : TokenKind} {first : Char} {others : List Char}

/-- A lexeme has a character. -/
theorem ne_nil {taken : List Char} (h : Lexeme kind taken) : taken ≠ [] := by
  cases h with
  | identifier | decimal | string => simp
  | whole hne _ => exact hne
  | symbol hmem =>
    obtain ⟨-, first, others, rfl, -⟩ := first_of_symbol hmem
    simp

/-- The end of input is no lexeme. -/
theorem ne_endOfInput {taken : List Char} (h : Lexeme kind taken) : kind ≠ .endOfInput := by
  cases h with
  | identifier | whole | decimal | string => simp
  | symbol hmem =>
    have hall : ∀ entry ∈ symbols, entry.2 ≠ .endOfInput := by decide
    exact hall _ hmem

/-- A lexeme at the front of a text has its first character in common with the text. -/
theorem cons_of_prefix {taken text : List Char} (h : Lexeme kind taken)
    (hfront : taken <+: first :: text) : ∃ others, taken = first :: others ∧ others <+: text := by
  rcases List.prefix_cons_iff.mp hfront with hnil | hcons
  · exact absurd hnil h.ne_nil
  · exact hcons

/-- The first character of a lexeme decides what the lexeme is. -/
theorem cases_first (h : Lexeme kind (first :: others)) :
    (IsQuote first ∧ kind = .string ∧ ∃ contents, others = contents ++ [first] ∧ first ∉ contents) ∨
    (first.isDigit ∧ kind = .number ∧ ((∀ c ∈ first :: others, c.isDigit) ∨
      ∃ digits fraction, first :: others = digits ++ '.' :: fraction ∧
        (∀ c ∈ digits, c.isDigit) ∧ ∀ c ∈ fraction, c.isDigit)) ∨
    (startsName first ∧ kind = .identifier ∧ ∀ c ∈ others, continuesName c) ∨
    (¬ IsQuote first ∧ first.isDigit = false ∧ startsName first = false ∧
      (first :: others, kind) ∈ symbols) := by
  generalize hchars : first :: others = chars at h
  cases h with
  | identifier hfirst hothers =>
    cases hchars
    exact .inr (.inr (.inl ⟨hfirst, rfl, hothers⟩))
  | whole _ hdigits =>
    subst hchars
    exact .inr (.inl ⟨hdigits first (by simp), rfl, .inl hdigits⟩)
  | @decimal digits fraction hne hdigits hfraction =>
    cases digits with
    | nil => exact absurd rfl hne
    | cons digit digits =>
      cases hchars
      exact .inr (.inl ⟨hdigits first (by simp), rfl,
        .inr ⟨first :: digits, fraction, rfl, hdigits, hfraction⟩⟩)
  | string hquote hcontents =>
    cases hchars
    exact .inl ⟨hquote, rfl, _, rfl, hcontents⟩
  | symbol hmem =>
    obtain ⟨-, first', others', rfl, hdouble, hsingle, hdigit, hname⟩ := first_of_symbol hmem
    cases hchars
    exact .inr (.inr (.inr ⟨by simp [IsQuote, hdouble, hsingle], hdigit, hname, hmem⟩))

/-- What starts with a quote is a string. -/
theorem of_quote (h : Lexeme kind (first :: others)) (hfirst : IsQuote first) :
    kind = .string ∧ ∃ contents, others = contents ++ [first] ∧ first ∉ contents := by
  rcases h.cases_first with ⟨-, hstring⟩ | ⟨hdigit, -⟩ | ⟨hname, -⟩ | ⟨hother, -⟩
  · exact hstring
  · simp [hfirst.not_isDigit] at hdigit
  · simp [hfirst.not_startsName] at hname
  · exact absurd hfirst hother

/-- What starts with a digit is a numeral. -/
theorem of_isDigit (h : Lexeme kind (first :: others)) (hfirst : first.isDigit) :
    kind = .number ∧ ((∀ c ∈ first :: others, c.isDigit) ∨
      ∃ digits fraction, first :: others = digits ++ '.' :: fraction ∧
        (∀ c ∈ digits, c.isDigit) ∧ ∀ c ∈ fraction, c.isDigit) := by
  rcases h.cases_first with ⟨hquote, -⟩ | ⟨-, hnumber⟩ | ⟨hname, -⟩ | ⟨-, hdigit, -⟩
  · simp [hquote.not_isDigit] at hfirst
  · exact hnumber
  · simp [not_startsName_of_isDigit hfirst] at hname
  · simp [hdigit] at hfirst

/-- What starts like a name is an identifier. -/
theorem of_startsName (h : Lexeme kind (first :: others)) (hfirst : startsName first) :
    kind = .identifier ∧ ∀ c ∈ others, continuesName c := by
  rcases h.cases_first with ⟨hquote, -⟩ | ⟨hdigit, -⟩ | ⟨-, hidentifier⟩ | ⟨-, -, hname, -⟩
  · simp [hquote.not_startsName] at hfirst
  · simp [not_startsName_of_isDigit hdigit] at hfirst
  · exact hidentifier
  · simp [hname] at hfirst

/-- What starts with anything else is a symbol. -/
theorem of_other (h : Lexeme kind (first :: others)) (hquote : ¬ IsQuote first)
    (hdigit : first.isDigit = false) (hname : startsName first = false) :
    (first :: others, kind) ∈ symbols := by
  rcases h.cases_first with ⟨hquote', -⟩ | ⟨hdigit', -⟩ | ⟨hname', -⟩ | ⟨-, -, -, hmem⟩
  · exact absurd hquote' hquote
  · simp [hdigit] at hdigit'
  · simp [hname] at hname'
  · exact hmem

/-- A lexeme is of one kind only. -/
theorem kind_unique {kind' : TokenKind} {taken : List Char} (h : Lexeme kind taken)
    (h' : Lexeme kind' taken) : kind = kind' := by
  obtain ⟨first, others, rfl⟩ := List.exists_cons_of_ne_nil h.ne_nil
  rcases h.cases_first with ⟨hquote, rfl, -⟩ | ⟨hdigit, rfl, -⟩ | ⟨hname, rfl, -⟩ |
    ⟨hquote, hdigit, hname, hmem⟩
  · exact (h'.of_quote hquote).1.symm
  · exact (h'.of_isDigit hdigit).1.symm
  · exact (h'.of_startsName hname).1.symm
  · have hkinds : ∀ entry ∈ symbols, ∀ entry' ∈ symbols, entry.1 = entry'.1 →
        entry.2 = entry'.2 := by
      decide
    exact hkinds _ hmem _ (h'.of_other hquote hdigit hname) rfl

end Lexeme

/-- One token at most is the longest. -/
theorem Longest.unique {kind kind' : TokenKind} {taken taken' text : List Char}
    (h : Longest kind taken text) (h' : Longest kind' taken' text) :
    kind = kind' ∧ taken = taken' := by
  obtain ⟨hlexeme, hfront, hlongest⟩ := h
  obtain ⟨hlexeme', hfront', hlongest'⟩ := h'
  have hlength := hlongest kind' taken' hlexeme' hfront'
  have hlength' := hlongest' kind taken hlexeme hfront
  have htaken : taken = taken' :=
    (List.prefix_of_prefix_length_le hfront hfront' hlength').eq_of_length
      (Nat.le_antisymm hlength' hlength)
  subst htaken
  exact ⟨hlexeme.kind_unique hlexeme', rfl⟩

/-- A longest token is a token. -/
theorem Longest.not_noLexeme {kind : TokenKind} {taken text : List Char}
    (h : Longest kind taken text) : ¬ NoLexeme text :=
  fun hnone => hnone kind taken h.1 h.2.1

end ScalarExpr
