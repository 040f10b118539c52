import ScalarExpr.Proofs.Json.Grammar

/-!
# JSON that is refused

Not all texts of JSON objects are read. Lists and objects may be nested 127 deep only, and a number
must have a double that is finite. A text with a member beyond either bound is refused as a whole,
whatever stands behind this member.
-/

namespace ScalarExpr.Json

variable {room depth : Nat} {text rest : List Char}

/-- A list needs room. -/
theorem readValue?_list_eq_none (h : skipBlanks text = '[' :: rest) : readValue? 0 text = none := by
  rw [readValue?]
  split
  · rfl
  · next first others hcons =>
    obtain ⟨rfl, rfl⟩ := List.cons.inj (h.symm.trans hcons)
    rw [if_pos rfl, if_pos rfl]

/-- A scalar that cannot be read is no value. -/
theorem readValue?_scalar_eq_none {first : Char} {others : List Char}
    (h : skipBlanks text = first :: others) (hlist : first ≠ '[') (hobject : first ≠ '\x7b')
    (hscalar : readScalar? first others = none) : readValue? room text = none := by
  rw [readValue?]
  split
  · rfl
  · next first' others' hcons =>
    obtain ⟨rfl, rfl⟩ := List.cons.inj (h.symm.trans hcons)
    simp only [if_neg hlist, if_neg hobject]
    split
    · rfl
    · next json after hsome =>
      rw [hscalar] at hsome
      cases hsome

/-- Lists that are nested deeper than there is room are refused. -/
theorem readValue?_eq_none_of_deep (h : room < depth) (rest : List Char) :
    readValue? room (List.replicate depth '[' ++ rest) = none := by
  have hopen (more : List Char) : skipBlanks ('[' :: more) = '[' :: more := rfl
  induction room generalizing depth with
  | zero =>
    obtain ⟨inner, rfl⟩ := Nat.exists_eq_add_one.mpr h
    exact readValue?_list_eq_none (hopen _)
  | succ room ih =>
    obtain ⟨inner, rfl⟩ := Nat.exists_eq_add_one.mpr (Nat.lt_of_le_of_lt (Nat.zero_le _) h)
    have hinner : room < inner := Nat.lt_of_succ_lt_succ h
    obtain ⟨deeper, rfl⟩ := Nat.exists_eq_add_one.mpr (Nat.lt_of_le_of_lt (Nat.zero_le _) hinner)
    have hclose : afterMark? ']' (List.replicate (deeper + 1) '[' ++ rest) = none :=
      afterMark?_of_ne (hopen _) (by decide)
    have hitems : readItems? room (List.replicate (deeper + 1) '[' ++ rest) = none := by
      rw [readItems?, ih hinner]
    rw [List.replicate_succ, List.cons_append, readValue?_list (hopen _), hclose, hitems]
    rfl

/-- A number without a finite double is refused. -/
theorem readValue?_eq_none_of_number {number : NumberParts} {first : Char} {others : List Char}
    (h : number.IsSpelled (first :: others)) (hdigit : first.isDigit) (hvalue : number.value? = none)
    (hrest : EndsNumber rest) : readValue? room (first :: others ++ rest) = none := by
  have hne {c : Char} (hc : c.isDigit = false) : first ≠ c := by
    rintro rfl
    rw [hc] at hdigit
    cases hdigit
  have hblank : isBlank first = false := by
    simp [isBlank, hne (show ' '.isDigit = false by decide), hne (show '\t'.isDigit = false by decide),
      hne (show '\n'.isDigit = false by decide), hne (show '\r'.isDigit = false by decide)]
  have hskip := skipBlanks_append isBlanks_nil hblank (others ++ rest)
  have hnumber : readNumber? (first :: (others ++ rest)) = none := by
    rw [← List.cons_append, readNumber?_of_isSpelled h hrest, hvalue]
    rfl
  refine readValue?_scalar_eq_none hskip (hne (by decide)) (hne (by decide)) ?_
  rw [readScalar?, if_neg (hne (by decide)), if_neg (hne (by decide)), if_neg (hne (by decide)),
    if_neg (hne (by decide)), hnumber]
  rfl

/-- An object whose first member is refused is refused. -/
theorem ofText?_eq_none_of_member {name : String} {front : List Char} (hname : SpellsName name front)
    (h : readValue? 126 text = none) : ofText? (String.ofList ('\x7b' :: (front ++ text))) = none := by
  obtain ⟨chars, afterQuote, afterName, -, hquote, hchars, hcolon⟩ := hname.reads text
  have hclose : afterMark? '\x7d' (front ++ text) = none := afterMark?_of_ne hquote (by decide)
  have hmembers : readMembers? 126 (front ++ text) = none := by
    obtain ⟨afterQuote, hmark, rfl⟩ := afterMark?_of_mark hquote
    obtain ⟨afterName, hstring, rfl⟩ := hchars
    obtain ⟨afterColon, hvalue, hrest⟩ := afterMark?_of_mark hcolon
    have hread : readValue? 126 afterColon.val = none := by rwa [hrest]
    rw [readMembers?]
    simp only [hmark, hstring, hvalue, hread]
  have hobject : readValue? nesting (String.ofList ('\x7b' :: (front ++ text))).toList = none := by
    rw [String.toList_ofList, nesting,
      readValue?_object (rfl : skipBlanks ('\x7b' :: (front ++ text)) = _), hclose, hmembers]
    rfl
  rw [ofText?, hobject]

/-- Lists in lists are JSON, however deep they are nested. -/
theorem spellsPart_lists (depth : Nat) : ∃ items,
    SpellsPart (depth + 1) (.value (.array items))
      (List.replicate (depth + 1) '[' ++ List.replicate (depth + 1) ']') := by
  induction depth with
  | zero => exact ⟨[], .emptyList isBlanks_nil⟩
  | succ depth ih =>
    obtain ⟨items, hitems⟩ := ih
    have hlist := SpellsPart.list (.lastItem (.padded isBlanks_nil hitems isBlanks_nil))
    refine ⟨[.array items], ?_⟩
    rw [List.replicate_succ, List.replicate_succ' (a := ']')]
    simpa using hlist

end ScalarExpr.Json
