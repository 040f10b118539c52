import ScalarExpr.Proofs.Token.Munch
import Mathlib.Data.List.Chain

/-!
# How tokens lie over their text

The tokens of a text are the slices at their offsets, and what lies before, between and after them
is blank. So no character is lost and none is read twice. The end of input is a token without
characters and stands right behind the last character.
-/

namespace ScalarExpr

open Text

/-- Only blanks stand between two offsets of a text. -/
def BlankBetween (source : List Char) (start stop : Nat) : Prop :=
  start ≤ stop ∧ ∀ k, start ≤ k → k < stop → ∃ c, source[k]? = some c ∧ isBlank c

/-- How tokens lie over a text from an offset on. -/
structure LaidOut (source : List Char) (start : Nat) (tokens : List Token) : Prop where
  /-- The end of input comes last and nowhere else, and the other tokens have characters. -/
  ends : ∃ words, tokens = words ++ [⟨.endOfInput, "", source.length⟩] ∧
    ∀ token ∈ words, token.kind ≠ .endOfInput ∧ 0 < token.length
  /-- A token is the slice of the text at its offset. -/
  slices : ∀ token ∈ tokens, token.text.toList = (source.drop token.offset).take token.length
  /-- Only blanks come before the first token. -/
  first : ∀ token ∈ tokens.head?, BlankBetween source start token.offset
  /-- Only blanks stand between one token and the next. -/
  gaps : tokens.IsChain fun a b => BlankBetween source (a.offset + a.length) b.offset

namespace LaidOut

variable {source : List Char} {tokens : List Token}

/-- The end of the text is laid out. -/
theorem stop (source : List Char) :
    LaidOut source source.length [⟨.endOfInput, "", source.length⟩] where
  ends := ⟨[], rfl, by simp⟩
  slices := by simp [Token.length]
  first := by simp [BlankBetween]; omega
  gaps := .singleton _

/-- A blank before tokens that are laid out is only more blank before the first of them. -/
theorem blank {start : Nat} {c : Char} (h : LaidOut source (start + 1) tokens)
    (hc : source[start]? = some c) (hblank : isBlank c) : LaidOut source start tokens where
  ends := h.ends
  slices := h.slices
  first := by
    intro token htoken
    obtain ⟨hle, hall⟩ := h.first token htoken
    refine ⟨by omega, fun k hstart hstop => ?_⟩
    rcases Nat.eq_or_lt_of_le hstart with rfl | hlater
    · exact ⟨c, hc, hblank⟩
    · exact hall k hlater hstop
  gaps := h.gaps

/-- A token before tokens that are laid out lies right before them. -/
theorem cons (token : Token) (h : LaidOut source (token.offset + token.length) tokens)
    (hkind : token.kind ≠ .endOfInput) (hlength : 0 < token.length)
    (hslice : token.text.toList = (source.drop token.offset).take token.length) :
    LaidOut source token.offset (token :: tokens) where
  ends := by
    obtain ⟨words, rfl, hwords⟩ := h.ends
    exact ⟨token :: words, rfl, List.forall_mem_cons.mpr ⟨⟨hkind, hlength⟩, hwords⟩⟩
  slices := List.forall_mem_cons.mpr ⟨hslice, h.slices⟩
  first := by
    rintro other ⟨⟩
    exact ⟨Nat.le_refl _, fun k hstart hstop => absurd hstart (Nat.not_le.mpr hstop)⟩
  gaps := List.isChain_cons.mpr ⟨h.first, h.gaps⟩

end LaidOut

/-- The tokens that are taken off a text lie over it. -/
theorem Munches.laidOut {position : Nat} {text : List Char}
    {result : Except LexError (List Token)} (h : Munches position text result)
    (before : List Char) {tokens : List Token} (hposition : before.length = position)
    (hresult : result = .ok tokens) : LaidOut (before ++ text) position tokens := by
  induction h generalizing before tokens with
  | stop =>
    cases hresult
    subst hposition
    rw [List.append_nil]
    exact .stop before
  | @blank position c text result hblank _ ih =>
    have hrest := ih (before ++ [c]) (by simp [hposition]) hresult
    rw [List.append_assoc, List.singleton_append] at hrest
    exact hrest.blank (by simp [← hposition]) hblank
  | @token position first text taken rest kind result _ hsplit hlongest _ _ ih =>
    cases result with
    | error error => cases hresult
    | ok others =>
      cases hresult
      have hrest := ih (before ++ taken) (by simp [hposition]) rfl
      rw [List.append_assoc, hsplit] at hrest
      have hlength : (Token.mk kind (String.ofList taken) position).length = taken.length := by
        simp [Token.length]
      refine LaidOut.cons ⟨kind, String.ofList taken, position⟩ ?_ ?_ ?_ ?_
      · rw [hlength]
        exact hrest
      · exact hlongest.1.ne_endOfInput
      · rw [hlength]
        exact List.length_pos_iff.mpr hlongest.1.ne_nil
      · rw [hlength, ← hsplit, ← hposition]
        simp
  | secondPoint => cases hresult
  | unterminated => cases hresult
  | unexpected => cases hresult

/-- A text is taken apart into the longest lexemes, and its tokens are laid out over it. -/
theorem tokenize_takes_longest (source : String) :
    (∀ result, tokenize source = result ↔ Munches 0 source.toList result) ∧
      ∀ tokens, tokenize source = .ok tokens → LaidOut source.toList 0 tokens :=
  ⟨fun _ => Munches.iff_tokenize.symm,
    fun _ htokens => (Munches.iff_tokenize.mpr htokens).laidOut [] rfl rfl⟩

end ScalarExpr
