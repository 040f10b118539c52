import ScalarExpr.Json
import ScalarExpr.Json.Numeral

/-!
# Reading JSON

A strict reader: blanks are the space, the tab and the two line breaks, nothing may follow the value
but blanks, and lists and objects may be nested 127 deep.
-/

namespace ScalarExpr.Json

/-- The blanks of JSON. -/
def isBlank (c : Char) : Bool := c == ' ' || c == '\t' || c == '\n' || c == '\r'

/-- A text without the blanks at its start. -/
def skipBlanks (text : List Char) : List Char := text.dropWhile isBlank

/-- Skipping blanks makes no text longer. -/
theorem length_skipBlanks (text : List Char) : (skipBlanks text).length ≤ text.length :=
  List.IsSuffix.length_le (List.dropWhile_suffix _)

/-- What follows a word at the start of a text. -/
def dropWord? : List Char → List Char → Option (List Char)
  | [], text => some text
  | _ :: _, [] => none
  | w :: word, c :: text => if w = c then dropWord? word text else none

/-- What is left after something has been read behind blanks and a character. -/
def Remainder.behind {text rest : List Char} {c : Char} (h : skipBlanks text = c :: rest)
    {inner : List Char} (hinner : inner.length ≤ rest.length) : Remainder text :=
  ⟨inner, by have := length_skipBlanks text; rw [h] at this; simp only [List.length_cons] at this; omega⟩

/-- The text after the character `mark` at the start of a text, behind blanks. -/
def afterMark? (mark : Char) (text : List Char) : Option (Remainder text) :=
  match h : skipBlanks text with
  | [] => none
  | c :: rest => if c = mark then some (Remainder.behind h (Nat.le_refl rest.length)) else none

/-- A value without parts of its own, which starts with this character. -/
def readScalar? (first : Char) (rest : List Char) : Option (Json × List Char) :=
  if first = 'n' then (dropWord? ['u', 'l', 'l'] rest).map (Json.null, ·)
  else if first = 't' then (dropWord? ['r', 'u', 'e'] rest).map (Json.boolean true, ·)
  else if first = 'f' then (dropWord? ['a', 'l', 's', 'e'] rest).map (Json.boolean false, ·)
  else if first = '"' then
    (readString? rest).map fun (chars, after) => (Json.string (String.ofList chars), after.val)
  else (readNumber? (first :: rest)).map fun (value, after) => (Json.number value, after)

/-- A word takes characters away. -/
theorem length_dropWord {word text rest : List Char} (h : dropWord? word text = some rest) :
    rest.length ≤ text.length := by
  induction word generalizing text with
  | nil => cases h; exact Nat.le_refl _
  | cons w word ih =>
    cases text with
    | nil => cases h
    | cons c text =>
      simp only [dropWord?] at h
      split at h
      · exact Nat.le_succ_of_le (ih h)
      · cases h

/-- A scalar takes characters away. -/
theorem length_readScalar {first : Char} {rest after : List Char} {value : Json}
    (h : readScalar? first rest = some (value, after)) : after.length ≤ rest.length := by
  unfold readScalar? at h
  split at h
  · obtain ⟨_, hword, heq⟩ := Option.map_eq_some_iff.mp h
    cases heq; exact length_dropWord hword
  · split at h
    · obtain ⟨_, hword, heq⟩ := Option.map_eq_some_iff.mp h
      cases heq; exact length_dropWord hword
    · split at h
      · obtain ⟨_, hword, heq⟩ := Option.map_eq_some_iff.mp h
        cases heq; exact length_dropWord hword
      · split at h
        · obtain ⟨⟨chars, last⟩, _, heq⟩ := Option.map_eq_some_iff.mp h
          cases heq; exact Nat.le_of_lt last.property
        · obtain ⟨⟨number, last⟩, hnumber, heq⟩ := Option.map_eq_some_iff.mp h
          cases heq
          have := length_readNumber hnumber
          simp only [List.length_cons] at this
          exact Nat.le_of_lt_succ this

mutual

/-- A value at the start of a text, inside which `room` more lists and objects may be nested. -/
def readValue? (room : Nat) (text : List Char) : Option (Json × Remainder text) :=
  match htext : skipBlanks text with
  | [] => none
  | first :: rest =>
    have hlength := length_skipBlanks text
    have hrest : rest.length < text.length := by rw [htext] at hlength; exact hlength
    if first = '[' then
      if room = 0 then none
      else
        match afterMark? ']' rest with
        | some after => some (.array [], .behind htext (Nat.le_of_lt after.property))
        | none =>
          (readItems? (room - 1) rest).map fun (items, after) =>
            (.array items, .behind htext (Nat.le_of_lt after.property))
    else if first = '\x7b' then
      if room = 0 then none
      else
        match afterMark? '\x7d' rest with
        | some after => some (.object [], .behind htext (Nat.le_of_lt after.property))
        | none =>
          (readMembers? (room - 1) rest).map fun (members, after) =>
            (.object members, .behind htext (Nat.le_of_lt after.property))
    else
      match hscalar : readScalar? first rest with
      | none => none
      | some (value, after) => some (value, .behind htext (length_readScalar hscalar))
termination_by 2 * text.length

/-- The items of a list, up to its end. -/
def readItems? (room : Nat) (text : List Char) : Option (List Json × Remainder text) :=
  match readValue? room text with
  | none => none
  | some (item, afterItem) =>
    match afterMark? ']' afterItem.val with
    | some after => some ([item], afterItem.after after)
    | none =>
      match afterMark? ',' afterItem.val with
      | none => none
      | some afterComma =>
        have := afterItem.property
        have := afterComma.property
        (readItems? room afterComma.val).map fun (items, after) =>
          (item :: items, (afterItem.after afterComma).after after)
termination_by 2 * text.length + 1

/-- The members of an object, up to its end. -/
def readMembers? (room : Nat) (text : List Char) :
    Option (List (String × Json) × Remainder text) :=
  match afterMark? '"' text with
  | none => none
  | some afterQuote =>
    match readString? afterQuote.val with
    | none => none
    | some (name, afterName) =>
      match afterMark? ':' afterName.val with
      | none => none
      | some afterColon =>
        have := afterQuote.property
        have := afterName.property
        have := afterColon.property
        match readValue? room afterColon.val with
        | none => none
        | some (value, afterValue) =>
          let start := (afterQuote.after afterName).after afterColon
          let member := (String.ofList name, value)
          match afterMark? '\x7d' afterValue.val with
          | some after => some ([member], (start.after afterValue).after after)
          | none =>
            match afterMark? ',' afterValue.val with
            | none => none
            | some afterComma =>
              have := afterValue.property
              have := afterComma.property
              (readMembers? room afterComma.val).map fun (members, after) =>
                (member :: members, ((start.after afterValue).after afterComma).after after)
termination_by 2 * text.length + 1

end

/-- How deep lists and objects may be nested. -/
def nesting : Nat := 127

/-- The value of a JSON text. -/
def ofText? (text : String) : Option Json :=
  match readValue? nesting text.toList with
  | some (value, after) => if skipBlanks after.val = [] then some value else none
  | none => none

end ScalarExpr.Json
