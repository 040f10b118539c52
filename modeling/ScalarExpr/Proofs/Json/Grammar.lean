import ScalarExpr.Proofs.Json.Reader

/-!
# The grammar of JSON

Which texts are JSON, and what they stand for, by the rules of the language. Blanks may stand before
and behind every value, name and mark; lists and objects may be nested as deep as the reader goes
down; a number has to be no larger than a double can be. The members of an object are kept as they
are written, in their order and with all that have one name.

Every text of the grammar is read to what it stands for. So whether a text is one of an object, and
of which members, can be seen from how it is written, without the reader.
-/

namespace ScalarExpr.Json

/-- What the rules of the grammar describe: values, values with blanks around them, and the items
and members between the brackets of lists and objects that are not empty. -/
inductive Part
  | value (json : Json)
  | padded (json : Json)
  | items (items : List Json)
  | members (members : List (String × Json))

/-- The texts of values without parts. -/
inductive SpellsScalar : Json → List Char → Prop
  | null : SpellsScalar .null ['n', 'u', 'l', 'l']
  | isTrue : SpellsScalar (.boolean true) ['t', 'r', 'u', 'e']
  | isFalse : SpellsScalar (.boolean false) ['f', 'a', 'l', 's', 'e']
  | number {number : NumberParts} {value : Number} {text : List Char} :
    number.IsSpelled text → number.Denotes value → SpellsScalar (.number value) text
  | string {chars text : List Char} :
    SpellsString chars text → SpellsScalar (.string (String.ofList chars)) ('"' :: (text ++ ['"']))

/-- The texts of the name of a member, up to its colon. -/
inductive SpellsName : String → List Char → Prop
  | of {before chars text behind : List Char} :
    IsBlanks before → SpellsString chars text → IsBlanks behind →
    SpellsName (String.ofList chars) (before ++ '"' :: (text ++ '"' :: (behind ++ [':'])))

/-- The texts of a part in which `room` more lists and objects may be nested. -/
inductive SpellsPart : Nat → Part → List Char → Prop
  | scalar {room : Nat} {json : Json} {text : List Char} :
    SpellsScalar json text → SpellsPart room (.value json) text
  | emptyList {room : Nat} {blanks : List Char} :
    IsBlanks blanks → SpellsPart (room + 1) (.value (.array [])) ('[' :: (blanks ++ [']']))
  | list {room : Nat} {items : List Json} {text : List Char} :
    SpellsPart room (.items items) text →
    SpellsPart (room + 1) (.value (.array items)) ('[' :: (text ++ [']']))
  | emptyObject {room : Nat} {blanks : List Char} :
    IsBlanks blanks → SpellsPart (room + 1) (.value (.object [])) ('\x7b' :: (blanks ++ ['\x7d']))
  | object {room : Nat} {members : List (String × Json)} {text : List Char} :
    SpellsPart room (.members members) text →
    SpellsPart (room + 1) (.value (.object members)) ('\x7b' :: (text ++ ['\x7d']))
  | padded {room : Nat} {json : Json} {before text behind : List Char} :
    IsBlanks before → SpellsPart room (.value json) text → IsBlanks behind →
    SpellsPart room (.padded json) (before ++ (text ++ behind))
  | lastItem {room : Nat} {item : Json} {text : List Char} :
    SpellsPart room (.padded item) text → SpellsPart room (.items [item]) text
  | item {room : Nat} {item : Json} {items : List Json} {text others : List Char} :
    SpellsPart room (.padded item) text → SpellsPart room (.items items) others →
    SpellsPart room (.items (item :: items)) (text ++ ',' :: others)
  | lastMember {room : Nat} {name : String} {json : Json} {front text : List Char} :
    SpellsName name front → SpellsPart room (.padded json) text →
    SpellsPart room (.members [(name, json)]) (front ++ text)
  | member {room : Nat} {name : String} {json : Json} {members : List (String × Json)}
    {front text others : List Char} :
    SpellsName name front → SpellsPart room (.padded json) text →
    SpellsPart room (.members members) others →
    SpellsPart room (.members ((name, json) :: members)) (front ++ (text ++ ',' :: others))

/-- The text of a JSON value. -/
def IsText (text : String) (json : Json) : Prop := SpellsPart nesting (.padded json) text.toList

/-- Behind blanks a text starts with a character that closes neither a list nor an object. -/
def Opens (text : List Char) : Prop :=
  ∃ blanks first others, text = blanks ++ first :: others ∧ IsBlanks blanks ∧
    isBlank first = false ∧ first ≠ ']' ∧ first ≠ '\x7d'

section Opens

variable {text : List Char} {json : Json}

/-- Blanks may stand before a text that opens, and anything behind it. -/
theorem Opens.pad {before : List Char} (h : Opens text) (hbefore : IsBlanks before)
    (behind : List Char) : Opens (before ++ (text ++ behind)) := by
  obtain ⟨blanks, first, others, rfl, hblanks, hfirst⟩ := h
  refine ⟨before ++ blanks, first, others ++ behind, by simp, ?_, hfirst⟩
  intro c hc
  rcases List.mem_append.mp hc with hc | hc
  · exact hbefore c hc
  · exact hblanks c hc

/-- Neither closing bracket is found where a text opens. -/
theorem Opens.afterMark?_eq_none (h : Opens text) (mark : Char) (rest : List Char)
    (hmark : mark ∈ [']', '\x7d']) : afterMark? mark (text ++ rest) = none := by
  obtain ⟨blanks, first, others, rfl, hblanks, hfirst, hlist, hobject⟩ := h
  rw [List.append_assoc, List.cons_append]
  refine afterMark?_of_ne (skipBlanks_append hblanks hfirst _) ?_
  rintro rfl
  rcases List.mem_pair.mp hmark with rfl | rfl
  · exact hlist rfl
  · exact hobject rfl

/-- A scalar starts with no closing bracket. -/
theorem IsScalar.opens (h : IsScalar text json) : Opens text := by
  obtain ⟨first, others, rfl, -, -, hfirst, hscalar⟩ := h
  have hread := hscalar [] nofun
  have hmark {mark : Char} (hmark : mark ∈ [']', '\x7d']) : first ≠ mark := by
    rintro rfl
    have hother : ∀ c ∈ ['n', 't', 'f', '"'], first ≠ c := by
      rcases List.mem_pair.mp hmark with rfl | rfl <;> simp
    rw [readScalar?, if_neg (hother 'n' (by simp)), if_neg (hother 't' (by simp)),
      if_neg (hother 'f' (by simp)), if_neg (hother '"' (by simp))] at hread
    obtain ⟨read, hread, -⟩ := Option.map_eq_some_iff.mp hread
    obtain ⟨c, text, heq, hc⟩ := first_of_readNumber? hread
    cases heq
    rcases List.mem_pair.mp hmark with rfl | rfl <;> revert hc <;> decide
  exact ⟨[], first, others, rfl, isBlanks_nil, hfirst, hmark (by decide), hmark (by decide)⟩

end Opens

/-- The text of a scalar is read to it. -/
theorem SpellsScalar.isScalar {json : Json} {text : List Char} (h : SpellsScalar json text) :
    IsScalar text json := by
  cases h with
  | null => exact ⟨'n', _, rfl, by decide, by decide, by decide, fun rest _ => rfl⟩
  | isTrue => exact ⟨'t', _, rfl, by decide, by decide, by decide, fun rest _ => rfl⟩
  | isFalse => exact ⟨'f', _, rfl, by decide, by decide, by decide, fun rest _ => rfl⟩
  | number hspells hdenotes =>
    refine isScalar_number fun rest hrest => ?_
    rw [readNumber?_of_isSpelled hspells hrest, NumberParts.value?_eq_some_iff.mpr hdenotes]
    rfl
  | string hspells => exact isScalar_string hspells

/-- Parts open, and so the closing bracket of an empty list or object is not found in them. -/
theorem SpellsPart.opens {room : Nat} {part : Part} {text : List Char}
    (h : SpellsPart room part text) : Opens text := by
  have hfirst {first : Char} (hfirst : first ∈ ['[', '\x7b', '"']) (others : List Char) :
      Opens (first :: others) := by
    refine ⟨[], first, others, rfl, isBlanks_nil, ?_⟩
    simp only [List.mem_cons, List.not_mem_nil, or_false] at hfirst
    rcases hfirst with rfl | rfl | rfl <;> decide
  have hname {name : String} {front : List Char} (hname : SpellsName name front)
      (others : List Char) : Opens (front ++ others) := by
    cases hname with
    | of hbefore _ _ =>
      rw [List.append_assoc]
      exact (hfirst (by decide) _).pad hbefore others
  induction h with
  | scalar hscalar => exact hscalar.isScalar.opens
  | emptyList | list | emptyObject | object => exact hfirst (by decide) _
  | padded hbefore _ _ ih => exact ih.pad hbefore _
  | lastItem _ ih => exact ih
  | item _ _ ih _ => exact ih.pad isBlanks_nil _
  | lastMember hspells => exact hname hspells _
  | member hspells => exact hname hspells _

/-- The name of a member is found up to its colon. -/
theorem SpellsName.reads {name : String} {front : List Char} (h : SpellsName name front)
    (value : List Char) : ∃ chars afterQuote afterName, name = String.ofList chars ∧
      skipBlanks (front ++ value) = '"' :: afterQuote ∧
      Leaves (readString? afterQuote) chars afterName ∧ skipBlanks afterName = ':' :: value := by
  obtain ⟨hbefore, hchars, hbehind⟩ := h
  rw [List.append_assoc, List.cons_append, List.append_assoc, List.cons_append, List.append_assoc,
    List.singleton_append]
  exact ⟨_, _, _, rfl, skipBlanks_append hbefore (by decide) _, hchars.leaves_readString? _,
    skipBlanks_append hbehind (by decide) value⟩

/-- A part is read from this text, with whatever may follow it behind it. -/
def Part.IsReadFrom (room : Nat) : Part → List Char → Prop
  | .value json, text => ∀ before rest, IsBlanks before → EndsNumber rest →
    Leaves (readValue? room (before ++ (text ++ rest))) json rest
  | .padded json, text => ∀ rest, EndsNumber rest →
    ∃ behind, IsBlanks behind ∧ Leaves (readValue? room (text ++ rest)) json (behind ++ rest)
  | .items entries, text => ∀ rest, Leaves (readItems? room (text ++ ']' :: rest)) entries rest
  | .members entries, text =>
    ∀ rest, Leaves (readMembers? room (text ++ '\x7d' :: rest)) entries rest

/-- Every part is read from its text. -/
theorem SpellsPart.isReadFrom {room : Nat} {part : Part} {text : List Char}
    (h : SpellsPart room part text) : part.IsReadFrom room text := by
  induction h with
  | scalar hscalar =>
    intro before rest hbefore hrest
    exact hscalar.isScalar.leaves_readValue? hbefore hrest
  | emptyList hblanks =>
    intro before rest hbefore _
    rw [List.cons_append, List.append_assoc]
    exact leaves_readValue?_emptyList (skipBlanks_append hbefore (by decide) _)
      (skipBlanks_append hblanks (by decide) rest)
  | list hitems ih =>
    intro before rest hbefore _
    have hclose := hitems.opens.afterMark?_eq_none ']' (']' :: rest) (by decide)
    rw [List.cons_append, List.append_assoc]
    exact leaves_readValue?_list (skipBlanks_append hbefore (by decide) _) hclose (ih rest)
  | emptyObject hblanks =>
    intro before rest hbefore _
    rw [List.cons_append, List.append_assoc]
    exact leaves_readValue?_emptyObject (skipBlanks_append hbefore (by decide) _)
      (skipBlanks_append hblanks (by decide) rest)
  | object hmembers ih =>
    intro before rest hbefore _
    have hclose := hmembers.opens.afterMark?_eq_none '\x7d' ('\x7d' :: rest) (by decide)
    rw [List.cons_append, List.append_assoc]
    exact leaves_readValue?_object (skipBlanks_append hbefore (by decide) _) hclose (ih rest)
  | @padded _ _ before text behind hbefore _ hbehind ih =>
    intro rest hrest
    rw [List.append_assoc, List.append_assoc]
    exact ⟨behind, hbehind, ih before _ hbefore (hrest.append_blanks hbehind)⟩
  | lastItem _ ih =>
    intro rest
    obtain ⟨behind, hbehind, hitem⟩ := ih _ (endsNumber_cons ']' rest (by decide))
    exact leaves_readItems?_last hitem (skipBlanks_append hbehind (by decide) rest)
  | @item _ _ _ text others _ _ ih ihOthers =>
    intro rest
    obtain ⟨behind, hbehind, hitem⟩ :=
      ih _ (endsNumber_cons ',' (others ++ ']' :: rest) (by decide))
    rw [List.append_assoc]
    exact leaves_readItems?_cons hitem (skipBlanks_append hbehind (by decide) _) (ihOthers rest)
  | @lastMember _ _ _ front text hname _ ih =>
    intro rest
    obtain ⟨behind, hbehind, hvalue⟩ := ih _ (endsNumber_cons '\x7d' rest (by decide))
    obtain ⟨chars, afterQuote, afterName, rfl, hquote, hchars, hcolon⟩ :=
      hname.reads (text ++ '\x7d' :: rest)
    rw [List.append_assoc]
    exact leaves_readMembers?_last hquote hchars hcolon hvalue
      (skipBlanks_append hbehind (by decide) rest)
  | @member _ _ _ _ front text others hname _ _ ih ihOthers =>
    intro rest
    obtain ⟨behind, hbehind, hvalue⟩ :=
      ih _ (endsNumber_cons ',' (others ++ '\x7d' :: rest) (by decide))
    obtain ⟨chars, afterQuote, afterName, rfl, hquote, hchars, hcolon⟩ :=
      hname.reads (text ++ ',' :: (others ++ '\x7d' :: rest))
    rw [List.append_assoc, List.append_assoc]
    exact leaves_readMembers?_cons hquote hchars hcolon hvalue
      (skipBlanks_append hbehind (by decide) _) (ihOthers rest)

/-- Every text of the grammar is read to what it stands for. -/
theorem IsText.ofText?_eq {text : String} {json : Json} (h : IsText text json) :
    ofText? text = some json := by
  obtain ⟨behind, hbehind, hvalue⟩ := SpellsPart.isReadFrom h [] nofun
  rw [List.append_nil, List.append_nil] at hvalue
  exact ofText?_of_leaves hvalue (skipBlanks_eq_nil hbehind)

end ScalarExpr.Json
