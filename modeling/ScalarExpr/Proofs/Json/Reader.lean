import ScalarExpr.Json.Reader
import ScalarExpr.Proofs.Json.Numeral
import ScalarExpr.Proofs.Json.Quoted

/-!
# How JSON is read

What the reader finds behind blanks decides how it goes on. A scalar is read to its end, a list or
an object up to its closing bracket, and in between one item or member is read behind the other.
Each reading leaves what stands behind the part that it has read.
-/

namespace ScalarExpr

namespace Json

/-- A text that is read to a scalar and nothing behind it. -/
def IsScalar (text : List Char) (json : Json) : Prop :=
  ∃ first others, text = first :: others ∧ first ≠ '[' ∧ first ≠ '\x7b' ∧ isBlank first = false ∧
    ∀ rest, EndsNumber rest → readScalar? first (others ++ rest) = some (json, rest)

/-- What stands for a string between quotes is a scalar. -/
theorem isScalar_string {chars text : List Char} (h : SpellsString chars text) :
    IsScalar ('"' :: (text ++ ['"'])) (.string (String.ofList chars)) := by
  refine ⟨'"', text ++ ['"'], rfl, by decide, by decide, by decide, fun rest _ => ?_⟩
  obtain ⟨after, hafter, hrest⟩ := h.leaves_readString? rest
  rw [List.append_assoc, List.singleton_append, readScalar?, if_neg (by decide),
    if_neg (by decide), if_neg (by decide), if_pos rfl, hafter]
  simp only [Option.map_some, hrest]

/-- A number starts with a minus or a digit. -/
theorem first_of_readNumber? {text rest : List Char} {value : Number}
    (h : readNumber? text = some (value, rest)) :
    ∃ first others, text = first :: others ∧ (first = '-' ∨ first.isDigit) := by
  cases text with
  | nil => cases h
  | cons first others =>
    refine ⟨first, others, rfl, ?_⟩
    by_contra hother
    obtain ⟨hminus, hdigit⟩ := not_or.mp hother
    have hsign : splitMinus (first :: others) = (false, first :: others) := by
      simp [splitMinus, hminus]
    have hspan : Numeral.spanDigits (first :: others) = ([], first :: others) := by
      simp [Numeral.spanDigits, hdigit]
    rw [readNumber?, hsign] at h
    simp only [hspan] at h
    cases h

/-- A number that is read from its text is a scalar. -/
theorem isScalar_number {text : List Char} {value : Number}
    (h : ∀ rest, EndsNumber rest → readNumber? (text ++ rest) = some (value, rest)) :
    IsScalar text (.number value) := by
  have htext := h [] nofun
  rw [List.append_nil] at htext
  obtain ⟨first, others, rfl, hfirst⟩ := first_of_readNumber? htext
  have hne {c : Char} (hc : c ≠ '-' ∧ c.isDigit = false) : first ≠ c := by
    rintro rfl
    rcases hfirst with hminus | hdigit
    · exact hc.1 hminus
    · rw [hc.2] at hdigit
      cases hdigit
  have hblank : isBlank first = false := by
    simp only [isBlank, Bool.or_eq_false_iff, beq_eq_false_iff_ne]
    exact ⟨⟨⟨hne (by decide), hne (by decide)⟩, hne (by decide)⟩, hne (by decide)⟩
  refine ⟨first, others, rfl, hne (by decide), hne (by decide), hblank, fun rest hrest => ?_⟩
  rw [readScalar?, if_neg (hne (by decide)), if_neg (hne (by decide)), if_neg (hne (by decide)),
    if_neg (hne (by decide)), ← List.cons_append, h rest hrest]
  rfl

section Parts

variable {room : Nat} {text rest close : List Char} {json : Json} {items : List Json}
  {members : List (String × Json)}

/-- A character behind blanks is found. -/
theorem afterMark?_of_mark {mark : Char} (h : skipBlanks text = mark :: rest) :
    ∃ after, afterMark? mark text = some after ∧ after.val = rest := by
  unfold afterMark?
  split
  · next hnil =>
    rw [h] at hnil
    cases hnil
  · next c others hcons =>
    obtain ⟨rfl, rfl⟩ := List.cons.inj (h.symm.trans hcons)
    exact ⟨_, if_pos rfl, rfl⟩

/-- Another character behind blanks is not the one looked for. -/
theorem afterMark?_of_ne {mark c : Char} (h : skipBlanks text = c :: rest) (hne : c ≠ mark) :
    afterMark? mark text = none := by
  unfold afterMark?
  split
  · rfl
  · next c' others hcons =>
    obtain ⟨rfl, rfl⟩ := List.cons.inj (h.symm.trans hcons)
    exact if_neg hne

/-- A scalar is read behind blanks. -/
theorem leaves_readValue?_scalar {first : Char} {others : List Char}
    (h : skipBlanks text = first :: others) (hlist : first ≠ '[') (hobject : first ≠ '\x7b')
    (hscalar : readScalar? first others = some (json, rest)) :
    Leaves (readValue? room text) json rest := by
  rw [readValue?]
  split
  · next hnil =>
    rw [h] at hnil
    cases hnil
  · next first' others' hcons =>
    obtain ⟨rfl, rfl⟩ := List.cons.inj (h.symm.trans hcons)
    simp only [if_neg hlist, if_neg hobject]
    split
    · next hnone =>
      rw [hscalar] at hnone
      cases hnone
    · next json' after' hsome =>
      rw [hscalar] at hsome
      cases hsome
      exact ⟨_, rfl, rfl⟩

/-- A list is read behind its bracket. -/
theorem readValue?_list (h : skipBlanks text = '[' :: rest) :
    readValue? (room + 1) text =
      match afterMark? ']' rest with
      | some after => some (.array [], .behind h (Nat.le_of_lt after.property))
      | none =>
        (readItems? room rest).map fun (items, after) =>
          (.array items, .behind h (Nat.le_of_lt after.property)) := by
  rw [readValue?]
  split
  · next hnil =>
    rw [h] at hnil
    cases hnil
  · next first others hcons =>
    obtain ⟨rfl, rfl⟩ := List.cons.inj (h.symm.trans hcons)
    rw [if_pos rfl, if_neg (Nat.succ_ne_zero room)]
    rfl

/-- An object is read behind its bracket. -/
theorem readValue?_object (h : skipBlanks text = '\x7b' :: rest) :
    readValue? (room + 1) text =
      match afterMark? '\x7d' rest with
      | some after => some (.object [], .behind h (Nat.le_of_lt after.property))
      | none =>
        (readMembers? room rest).map fun (members, after) =>
          (.object members, .behind h (Nat.le_of_lt after.property)) := by
  rw [readValue?]
  split
  · next hnil =>
    rw [h] at hnil
    cases hnil
  · next first others hcons =>
    obtain ⟨rfl, rfl⟩ := List.cons.inj (h.symm.trans hcons)
    rw [if_neg (by decide), if_pos rfl, if_neg (Nat.succ_ne_zero room)]
    rfl

/-- An empty list is read up to its closing bracket. -/
theorem leaves_readValue?_emptyList {others : List Char} (h : skipBlanks text = '[' :: others)
    (hclose : skipBlanks others = ']' :: rest) :
    Leaves (readValue? (room + 1) text) (.array []) rest := by
  obtain ⟨after, hafter, rfl⟩ := afterMark?_of_mark hclose
  rw [readValue?_list h, hafter]
  exact ⟨_, rfl, rfl⟩

/-- A list with items is read behind blanks. -/
theorem leaves_readValue?_list {others : List Char} (h : skipBlanks text = '[' :: others)
    (hclose : afterMark? ']' others = none) (hitems : Leaves (readItems? room others) items rest) :
    Leaves (readValue? (room + 1) text) (.array items) rest := by
  obtain ⟨after, hafter, rfl⟩ := hitems
  rw [readValue?_list h, hclose, hafter]
  exact ⟨_, rfl, rfl⟩

/-- An empty object is read up to its closing bracket. -/
theorem leaves_readValue?_emptyObject {others : List Char}
    (h : skipBlanks text = '\x7b' :: others) (hclose : skipBlanks others = '\x7d' :: rest) :
    Leaves (readValue? (room + 1) text) (.object []) rest := by
  obtain ⟨after, hafter, rfl⟩ := afterMark?_of_mark hclose
  rw [readValue?_object h, hafter]
  exact ⟨_, rfl, rfl⟩

/-- An object with members is read behind blanks. -/
theorem leaves_readValue?_object {others : List Char}
    (h : skipBlanks text = '\x7b' :: others) (hclose : afterMark? '\x7d' others = none)
    (hmembers : Leaves (readMembers? room others) members rest) :
    Leaves (readValue? (room + 1) text) (.object members) rest := by
  obtain ⟨after, hafter, rfl⟩ := hmembers
  rw [readValue?_object h, hclose, hafter]
  exact ⟨_, rfl, rfl⟩

/-- The last item of a list is read up to the closing bracket. -/
theorem leaves_readItems?_last (hitem : Leaves (readValue? room text) json close)
    (hclose : skipBlanks close = ']' :: rest) : Leaves (readItems? room text) [json] rest := by
  obtain ⟨afterItem, hafterItem, rfl⟩ := hitem
  obtain ⟨after, hafter, rfl⟩ := afterMark?_of_mark hclose
  rw [readItems?]
  simp only [hafterItem, hafter]
  exact ⟨_, rfl, rfl⟩

/-- Items are read one behind the other. -/
theorem leaves_readItems?_cons {others : List Char}
    (hitem : Leaves (readValue? room text) json close) (hcomma : skipBlanks close = ',' :: others)
    (hothers : Leaves (readItems? room others) items rest) :
    Leaves (readItems? room text) (json :: items) rest := by
  obtain ⟨afterItem, hafterItem, rfl⟩ := hitem
  have hclose := @afterMark?_of_ne _ _ ']' _ hcomma (by decide)
  obtain ⟨afterComma, hafterComma, rfl⟩ := afterMark?_of_mark hcomma
  obtain ⟨after, hafter, rfl⟩ := hothers
  rw [readItems?]
  simp only [hafterItem, hclose, hafterComma, hafter]
  exact ⟨_, rfl, rfl⟩

/-- The last member of an object is read up to the closing bracket. -/
theorem leaves_readMembers?_last {chars name colon value : List Char}
    (hname : skipBlanks text = '"' :: name) (hchars : Leaves (readString? name) chars colon)
    (hcolon : skipBlanks colon = ':' :: value) (hvalue : Leaves (readValue? room value) json close)
    (hclose : skipBlanks close = '\x7d' :: rest) :
    Leaves (readMembers? room text) [(String.ofList chars, json)] rest := by
  obtain ⟨afterQuote, hafterQuote, rfl⟩ := afterMark?_of_mark hname
  obtain ⟨afterName, hafterName, rfl⟩ := hchars
  obtain ⟨afterColon, hafterColon, rfl⟩ := afterMark?_of_mark hcolon
  obtain ⟨afterValue, hafterValue, rfl⟩ := hvalue
  obtain ⟨afterClose, hafterClose, rfl⟩ := afterMark?_of_mark hclose
  rw [readMembers?]
  simp only [hafterQuote, hafterName, hafterColon, hafterValue, hafterClose]
  exact ⟨_, rfl, rfl⟩

/-- Members are read one behind the other. -/
theorem leaves_readMembers?_cons {chars name colon value others : List Char}
    (hname : skipBlanks text = '"' :: name) (hchars : Leaves (readString? name) chars colon)
    (hcolon : skipBlanks colon = ':' :: value) (hvalue : Leaves (readValue? room value) json close)
    (hcomma : skipBlanks close = ',' :: others)
    (hothers : Leaves (readMembers? room others) members rest) :
    Leaves (readMembers? room text) ((String.ofList chars, json) :: members) rest := by
  obtain ⟨afterQuote, hafterQuote, rfl⟩ := afterMark?_of_mark hname
  obtain ⟨afterName, hafterName, rfl⟩ := hchars
  obtain ⟨afterColon, hafterColon, rfl⟩ := afterMark?_of_mark hcolon
  obtain ⟨afterValue, hafterValue, rfl⟩ := hvalue
  have hclose := @afterMark?_of_ne _ _ '\x7d' _ hcomma (by decide)
  obtain ⟨afterComma, hafterComma, rfl⟩ := afterMark?_of_mark hcomma
  obtain ⟨after, hafter, rfl⟩ := hothers
  rw [readMembers?]
  simp only [hafterQuote, hafterName, hafterColon, hafterValue, hclose, hafterComma, hafter]
  exact ⟨_, rfl, rfl⟩

/-- A text that is read to a value with nothing but blanks behind it is the text of this value. -/
theorem ofText?_of_leaves {source : String} (h : Leaves (readValue? nesting source.toList) json rest)
    (hrest : skipBlanks rest = []) : ofText? source = some json := by
  obtain ⟨after, hafter, rfl⟩ := h
  rw [ofText?, hafter]
  exact if_pos hrest

/-- Characters that JSON allows between any two parts of a text. -/
def IsBlanks (text : List Char) : Prop := ∀ c ∈ text, isBlank c

/-- There may be none. -/
theorem isBlanks_nil : IsBlanks [] := nofun

/-- Blanks are skipped up to a character that is none. -/
theorem skipBlanks_append {blanks : List Char} {c : Char} (h : IsBlanks blanks)
    (hc : isBlank c = false) (rest : List Char) : skipBlanks (blanks ++ c :: rest) = c :: rest := by
  rw [skipBlanks, List.dropWhile_append_of_pos h, List.dropWhile_cons, hc]
  rfl

/-- Of nothing but blanks nothing is left. -/
theorem skipBlanks_eq_nil {blanks : List Char} (h : IsBlanks blanks) : skipBlanks blanks = [] := by
  rw [skipBlanks, ← List.append_nil blanks, List.dropWhile_append_of_pos h]
  rfl

/-- Blanks end a number, unless there are none and what follows does not. -/
theorem EndsNumber.append_blanks {blanks : List Char} (h : EndsNumber rest)
    (hblanks : IsBlanks blanks) : EndsNumber (blanks ++ rest) := by
  intro c hc
  cases blanks with
  | nil => exact h c hc
  | cons blank blanks =>
    cases hc
    have hblank := hblanks _ List.mem_cons_self
    simp only [isBlank, Bool.or_eq_true, beq_iff_eq] at hblank
    rcases hblank with ((rfl | rfl) | rfl) | rfl <;> decide

/-- The marks between the parts of lists and objects end a number. -/
theorem endsNumber_cons (mark : Char) (rest : List Char) (hmark : mark ∈ [',', ']', '\x7d']) :
    EndsNumber (mark :: rest) := by
  rintro _ ⟨⟩
  simp only [List.mem_cons, List.not_mem_nil, or_false] at hmark
  rcases hmark with rfl | rfl | rfl <;> decide

/-- A scalar is read behind blanks, and leaves what follows it. -/
theorem IsScalar.leaves_readValue? {blanks : List Char} (h : IsScalar text json)
    (hblanks : IsBlanks blanks) (hrest : EndsNumber rest) :
    Leaves (readValue? room (blanks ++ (text ++ rest))) json rest := by
  obtain ⟨first, others, rfl, hlist, hobject, hfirst, hscalar⟩ := h
  rw [List.cons_append]
  exact leaves_readValue?_scalar (skipBlanks_append hblanks hfirst _) hlist hobject
    (hscalar rest hrest)

/-- A scalar is the JSON value of its text. -/
theorem IsScalar.ofText? {source : String} (h : IsScalar source.toList json) :
    ofText? source = some json := by
  have hleaves : Leaves (readValue? nesting ([] ++ (source.toList ++ []))) json [] :=
    h.leaves_readValue? isBlanks_nil nofun
  rw [List.append_nil, List.nil_append] at hleaves
  exact ofText?_of_leaves hleaves rfl

end Parts

end Json

end ScalarExpr
