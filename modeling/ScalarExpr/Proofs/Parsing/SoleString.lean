import ScalarExpr.Proofs.Parsing.Leaf
import ScalarExpr.Proofs.Text.Slice
import Mathlib.Data.Nat.PSub

/-!
# A string token of any text

A token that is put together by hand may say of any text that it is a string. Its contents are found by
arithmetic on numbers of bytes, which has to make sense for every text: no difference is below zero, and
where an end of the slice would be within a character there are no contents. Where there are none, the
token is read as the empty string.
-/

namespace ScalarExpr

namespace Token

/-- The contents of a token as a slice of its text between numbers of bytes. If the difference of two
such numbers were below zero, there would be no result at all. -/
def slicedContents? (token : Token) : Option (Option String) :=
  match token.kind, token.text.toList with
  | .string, quote :: _ =>
    (token.text.utf8ByteSize.psub quote.utf8Size).map fun stop =>
      Text.slice? token.text quote.utf8Size stop
  | _, _ => some none

/-- A slice from behind the first character to as many bytes before the end is the contents. -/
theorem slice?_eq_contents? {token : Token} (hkind : token.kind = .string) {quote : Char}
    {chars : List Char} (htext : token.text.toList = quote :: chars) :
    Text.slice? token.text quote.utf8Size (String.utf8Len chars) = token.contents? := by
  ext contents
  rw [Text.slice?_eq_some_iff, contents?_eq_some_iff]
  constructor
  · rintro ⟨before, after, hsplit, hbefore, hstop⟩
    have hchars : quote :: chars = before.toList ++ (contents.toList ++ after.toList) := by
      rw [← htext, hsplit, String.toList_append, String.toList_append, List.append_assoc]
    rw [← String.utf8Len_toList] at hbefore hstop
    rw [String.toList_append, String.utf8Len_append] at hstop
    -- What has as many bytes as the first character, and begins with it, is this character.
    obtain ⟨hnil, -⟩ | ⟨more, hmore, hrest⟩ := List.cons_eq_append_iff.mp hchars
    · rw [hnil, String.utf8Len_nil] at hbefore
      exact absurd hbefore (Nat.ne_of_lt quote.utf8Size_pos)
    · rw [hmore, String.utf8Len_cons] at hbefore hstop
      obtain rfl : more = [] := String.utf8Len_eq_zero.mp (by omega)
      refine ⟨hkind, quote, after.toList, ?_, ?_⟩
      · rw [htext, hrest, List.nil_append]
      · rw [hrest, List.nil_append, String.utf8Len_append] at hstop
        omega
  · rintro ⟨-, first, closing, hsplit, hbytes⟩
    obtain ⟨rfl, rfl⟩ := List.cons.inj (htext.symm.trans hsplit)
    refine ⟨String.ofList [quote], String.ofList closing, ?_, ?_, ?_⟩
    · rw [← String.toList_inj, hsplit]
      simp
    · simp
    · simp [hbytes, Nat.add_comm]

/-- The slice has a result for every token, and it is the contents. -/
theorem slicedContents?_eq (token : Token) : token.slicedContents? = some token.contents? := by
  unfold slicedContents?
  split
  · next quote chars hkind htext =>
    have hsize : String.utf8Len chars + quote.utf8Size = token.text.utf8ByteSize := by
      rw [← String.utf8Len_toList, htext, String.utf8Len_cons]
    rw [Nat.psub_eq_some.mpr hsize, Option.map_some, slice?_eq_contents? hkind htext]
  · next hnone =>
    congr 1
    symm
    rw [Option.eq_none_iff_forall_ne_some]
    intro contents hcontents
    obtain ⟨hkind, first, closing, htext, -⟩ := contents?_eq_some_iff.mp hcontents
    exact hnone _ _ hkind htext

end Token

/-- How the contents of a token come from its text, and how the token is read where it stands alone. -/
structure Unquotes (token : Token) : Prop where
  /-- The arithmetic on bytes has a result, which is the contents. -/
  sliced : token.slicedContents? = some token.contents?
  /-- There are contents exactly in a string whose text is a first character, the contents, and at
  least one more character, where the characters behind the contents have as many bytes as the first. -/
  split_iff : ∀ contents, token.contents? = some contents ↔ token.kind = .string ∧
    ∃ first closing, closing ≠ [] ∧ token.text.toList = first :: (contents.toList ++ closing) ∧
      String.utf8Len closing = first.utf8Size
  /-- A string alone is read as its contents, if it has any. -/
  literal : token.kind = .string → ∀ limits contents, token.contents? = some contents →
    ((TokenStream.ofTokens [token]).parse limits).1 = .ok (.text contents token.offset)
  /-- Otherwise it is read as the empty string. -/
  literal_empty : token.kind = .string → ∀ limits, token.contents? = none →
    ((TokenStream.ofTokens [token]).parse limits).1 = .ok (.text "" token.offset)

/-- A string alone is read as its contents, and as the empty string if it has none. -/
theorem parse_ofTokens_string {token : Token} (hkind : token.kind = .string) (limits : Limits) :
    ((TokenStream.ofTokens [token]).parse limits).1 =
      .ok (.text (token.contents?.getD "") token.offset) := by
  have htokens : (TokenStream.ofTokens [token]).tokens = [token] := by
    simp [TokenStream.ofTokens, hkind]
  refine TokenStream.parse_of_reads_unary ?_
  rw [htokens]
  refine .noPrefix ?_ (.text hkind)
  rintro first ⟨⟩
  rw [hkind]
  rfl

/-- Every token is unquoted safely and exactly, whatever its kind and its text. -/
theorem unquotes_token (token : Token) : Unquotes token where
  sliced := token.slicedContents?_eq
  split_iff := by
    intro contents
    rw [Token.contents?_eq_some_iff]
    refine and_congr_right fun _ => exists_congr fun first => exists_congr fun closing => ?_
    -- No character has no bytes, so that there is something behind the contents.
    refine ⟨fun ⟨htext, hbytes⟩ => ⟨?_, htext, hbytes⟩, And.right⟩
    rintro rfl
    exact absurd hbytes (Nat.ne_of_lt first.utf8Size_pos)
  literal := by
    intro hkind limits contents hcontents
    rw [parse_ofTokens_string hkind, hcontents, Option.getD_some]
  literal_empty := by
    intro hkind limits hnone
    rw [parse_ofTokens_string hkind, hnone, Option.getD_none]

/-- Two characters at the end may have the bytes of the first one, and one may have too many. -/
example : (Token.mk .string "éxab" 0).contents? = some "x" ∧
    (Token.mk .string "éx€" 0).contents? = none := by
  decide

end ScalarExpr
