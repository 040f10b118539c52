import ScalarExpr.Proofs.Token.Lexeme
import Mathlib.Data.String.Basic

/-!
# What stands between quotes

The contents of a string are found by the bytes of its quotes: behind the first character, and before
as many bytes at the end as that character has. This is said here with characters, for any text. Where
the quotes are two of one kind the contents are the characters between them, whatever they are.
-/

namespace ScalarExpr

/-- A string is what stands between two quotes of one kind, none of them within. -/
theorem Lexeme.quoted {chars : List Char} (h : Lexeme .string chars) :
    ∃ quote contents, IsQuote quote ∧ quote ∉ contents ∧
      chars = quote :: (contents ++ [quote]) := by
  generalize hkind : TokenKind.string = kind at h
  cases h with
  | identifier | whole | decimal => cases hkind
  | string hquote hcontents => exact ⟨_, _, hquote, hcontents, rfl⟩
  | symbol hmem =>
    have hall : ∀ entry ∈ symbols, entry.2 ≠ .string := by decide
    exact absurd hkind.symm (hall _ hmem)

namespace Token

/-- What is left after some bytes is what stands behind characters that have so many. -/
theorem dropBytes?_eq_some_iff {bytes : Nat} {chars rest : List Char} :
    dropBytes? bytes chars = some rest ↔
      ∃ dropped, chars = dropped ++ rest ∧ String.utf8Len dropped = bytes := by
  fun_induction dropBytes? bytes chars with
  | case1 chars =>
    refine ⟨fun h => ⟨[], Option.some.inj h, rfl⟩, ?_⟩
    rintro ⟨dropped, rfl, hbytes⟩
    rw [String.utf8Len_eq_zero.mp hbytes, List.nil_append]
  | case2 bytes =>
    refine ⟨nofun, ?_⟩
    rintro ⟨dropped, hnil, hbytes⟩
    rw [(List.append_eq_nil_iff.mp hnil.symm).1] at hbytes
    cases hbytes
  | case3 bytes c chars hle ih =>
    rw [ih]
    constructor
    · rintro ⟨dropped, rfl, hbytes⟩
      exact ⟨c :: dropped, rfl, by rw [String.utf8Len_cons, hbytes, Nat.sub_add_cancel hle]⟩
    · rintro ⟨dropped, hchars, hbytes⟩
      obtain ⟨rfl, rfl⟩ | ⟨dropped, rfl, rfl⟩ := List.cons_eq_append_iff.mp hchars
      · cases hbytes
      · exact ⟨dropped, rfl, (Nat.sub_eq_of_eq_add hbytes.symm).symm⟩
  | case4 bytes c chars hlt =>
    refine ⟨nofun, ?_⟩
    rintro ⟨dropped, hchars, hbytes⟩
    obtain ⟨rfl, rfl⟩ | ⟨dropped, rfl, rfl⟩ := List.cons_eq_append_iff.mp hchars
    · cases hbytes
    · rw [String.utf8Len_cons] at hbytes
      omega

/-- Between the first character and as many bytes at the end stands exactly what is in front of
characters that have so many. -/
theorem unquote?_eq_some_iff {chars contents : List Char} :
    unquote? chars = some contents ↔ ∃ first closing,
      chars = first :: (contents ++ closing) ∧ String.utf8Len closing = first.utf8Size := by
  cases chars with
  | nil => simp [unquote?]
  | cons first chars =>
    simp only [unquote?, Option.map_eq_some_iff, dropBytes?_eq_some_iff]
    constructor
    · rintro ⟨rest, ⟨dropped, hchars, hbytes⟩, rfl⟩
      refine ⟨first, dropped.reverse, ?_, by rw [String.utf8Len_reverse, hbytes]⟩
      rw [← List.reverse_append, ← hchars, List.reverse_reverse]
    · rintro ⟨_, closing, ⟨⟩, hbytes⟩
      refine ⟨contents.reverse, ⟨closing.reverse, List.reverse_append, ?_⟩, List.reverse_reverse _⟩
      rwa [String.utf8Len_reverse]

/-- The contents of a token are what stands between the first character of a string and characters at
its end that have as many bytes. -/
theorem contents?_eq_some_iff {token : Token} {contents : String} :
    token.contents? = some contents ↔ token.kind = .string ∧ ∃ first closing,
      token.text.toList = first :: (contents.toList ++ closing) ∧
        String.utf8Len closing = first.utf8Size := by
  unfold contents?
  split
  · next hkind =>
    simp only [Option.map_eq_some_iff, unquote?_eq_some_iff, hkind, true_and]
    constructor
    · rintro ⟨chars, hsplit, rfl⟩
      rwa [String.toList_ofList]
    · exact fun hsplit => ⟨contents.toList, hsplit, String.ofList_toList⟩
  · next hkind => simp [hkind]

/-- The contents of a string are what stands between its quotes. -/
theorem contents?_of_quoted {token : Token} (h : token.kind = .string) {quote : Char}
    {contents : List Char} (hchars : token.text.toList = quote :: (contents ++ [quote])) :
    token.contents? = some (String.ofList contents) := by
  refine contents?_eq_some_iff.mpr ⟨h, quote, [quote], ?_, by simp⟩
  rw [hchars, String.toList_ofList]

end Token

end ScalarExpr
