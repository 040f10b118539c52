import ScalarExpr.Proofs.Json.Grammar
import Mathlib.Data.List.TakeWhile

/-!
# Only JSON is read

Whatever the reader takes from a text it takes by the rules of the grammar: what is in front of the
remainder is a text of what was read. So the texts that are read are those of the grammar, and each
of them stands for one value only.

A reading of a part never looks at blanks behind it. They belong to the mark that follows, which is
where they are put in front of the part's own text again.
-/

namespace ScalarExpr.Json

open Numeral

/-- What is in front of a remainder and what is in front of the remainder of this. -/
theorem eq_append_of_eq_append {text front middle back rest : List Char}
    (h : text = front ++ middle) (hmiddle : middle = back ++ rest) :
    text = (front ++ back) ++ rest := by
  rw [h, hmiddle, List.append_assoc]

section Strings

variable {text : List Char} {c : Char}

/-- Hexadecimal digits are ASCII characters. -/
theorem toNat_lt_of_hexValue? {n : Nat} (h : hexValue? c = some n) : c.toNat < 128 := by
  unfold hexValue? at h
  split at h
  · next hdigit => exact Nat.lt_of_le_of_lt (Char.isDigit_iff_toNat.mp hdigit).2 (by decide)
  · split at h
    · next hsmall => exact Nat.lt_of_le_of_lt (UInt32.le_iff_toNat_le.mp hsmall.2) (by decide)
    · split at h
      · next hlarge => exact Nat.lt_of_le_of_lt (UInt32.le_iff_toNat_le.mp hlarge.2) (by decide)
      · cases h

/-- What has the value of a hexadecimal digit is one. -/
theorem isHexDigit_of_hexValue? {n : Nat} (h : hexValue? c = some n) : IsHexDigit n c := by
  have hall : ∀ point < 128, ∀ n ∈ hexValue? (Char.ofNat point), n < 16 ∧
      (Char.ofNat point = hexDigit n ∨ Char.ofNat point = (hexDigit n).toUpper) := by
    decide
  have hdigit := hall c.toNat (toNat_lt_of_hexValue? h)
  rw [Char.ofNat_toNat] at hdigit
  exact hdigit n h

/-- Four hexadecimal digits have sixteen bits. -/
theorem SpellsUnit.lt {n : Nat} {code : List Char} (h : SpellsUnit n code) : n < 0x10000 := by
  obtain ⟨ha, hb, hc, hd⟩ := h
  have := ha.1
  have := hb.1
  have := hc.1
  have := hd.1
  omega

/-- A code point that is no surrogate is that of its character. -/
theorem toNat_ofNat {point : Nat} (hsmall : point < 0x110000)
    (hsurrogate : ¬ (0xD800 ≤ point ∧ point < 0xE000)) : (Char.ofNat point).toNat = point := by
  have hvalid : point.isValidChar := by
    unfold Nat.isValidChar
    omega
  rw [Char.ofNat, dif_pos hvalid]
  rfl

/-- What is read as four hexadecimal digits are such digits. -/
theorem spellsUnit_of_readUnit? {n : Nat} {after : Remainder text}
    (h : readUnit? text = some (n, after)) :
    ∃ code, text = code ++ after.val ∧ SpellsUnit n code := by
  unfold readUnit? at h
  split at h
  · next w x y z rest =>
    split at h
    · next a b c d ha hb hc hd =>
      cases h
      exact ⟨[w, x, y, z], rfl, .of (isHexDigit_of_hexValue? ha) (isHexDigit_of_hexValue? hb)
        (isHexDigit_of_hexValue? hc) (isHexDigit_of_hexValue? hd)⟩
    · cases h
  · cases h

/-- A code point is read from its digits or from its surrogates. -/
theorem spellsEscape_of_readCodePoint? {after : Remainder text}
    (h : readCodePoint? text = some (c, after)) :
    ∃ code, text = code ++ after.val ∧ SpellsEscape c ('u' :: code) := by
  unfold readCodePoint? at h
  split at h
  · cases h
  · next high afterHigh hhigh =>
    obtain ⟨front, hfront, hunit⟩ := spellsUnit_of_readUnit? hhigh
    split at h
    · next hsurrogate =>
      split at h
      · next rest hrest =>
        split at h
        · cases h
        · next low afterLow hlow =>
          obtain ⟨back, hback, hpartner⟩ := spellsUnit_of_readUnit? hlow
          split at h
          · next hlowSurrogate =>
            injection h with h
            obtain ⟨rfl, rfl⟩ := Prod.mk.inj h
            have hmiddle := hrest.trans (congrArg ('\\' :: 'u' :: ·) hback)
            exact ⟨front ++ '\\' :: 'u' :: back,
              @eq_append_of_eq_append _ _ _ ('\\' :: 'u' :: back) _ hfront hmiddle,
              .surrogates hsurrogate hlowSurrogate (toNat_ofNat (by omega) (by omega)) hunit
                hpartner⟩
          · cases h
      · cases h
    · split at h
      · cases h
      · cases h
        have := hunit.lt
        have hpoint := @toNat_ofNat high (by omega) (by omega)
        exact ⟨front, hfront, .point (hpoint.symm ▸ hunit)⟩

/-- What is read behind a backslash stands for what it is read to. -/
theorem spellsEscape_of_readEscape? {after : Remainder text}
    (h : readEscape? text = some (c, after)) :
    ∃ code, text = code ++ after.val ∧ SpellsEscape c code := by
  unfold readEscape? at h
  split at h
  · cases h
  · next letter rest =>
    dsimp only at h
    split at h
    case h_9 =>
      obtain ⟨⟨point, afterPoint⟩, hpoint, heq⟩ := Option.map_eq_some_iff.mp h
      cases heq
      obtain ⟨code, hcode, hspells⟩ := spellsEscape_of_readCodePoint? hpoint
      exact ⟨'u' :: code, congrArg ('u' :: ·) hcode, hspells⟩
    case h_10 => cases h
    all_goals
      cases h
      exact ⟨[_], rfl, .letter (by decide)⟩

/-- What is read up to a quote stands for the characters that are read. -/
theorem spellsString_of_readString? {chars : List Char} {after : Remainder text}
    (h : readString? text = some (chars, after)) :
    ∃ code, text = code ++ '"' :: after.val ∧ SpellsString chars code := by
  -- The reader calls itself on what is left, and so the induction is on a bound for the length.
  obtain ⟨bound, hbound⟩ : ∃ bound, text.length < bound := ⟨_, Nat.lt_succ_self _⟩
  induction bound generalizing text chars with
  | zero => cases hbound
  | succ bound ih =>
    cases text with
    | nil =>
      rw [readString?] at h
      cases h
    | cons first rest =>
      rw [List.length_cons, Nat.add_lt_add_iff_right] at hbound
      rw [readString?] at h
      split at h
      · next hquote =>
        cases h
        exact ⟨[], congrArg (· :: rest) hquote, .nil⟩
      · next hquote =>
        split at h
        · cases h
        · next hcontrol =>
          split at h
          · next hslash =>
            split at h
            · cases h
            · next escaped afterEscape hescape =>
              obtain ⟨⟨others, last⟩, hothers, heq⟩ := Option.map_eq_some_iff.mp h
              cases heq
              obtain ⟨code, hcode, hspells⟩ := spellsEscape_of_readEscape? hescape
              obtain ⟨behind, hbehind, hrest⟩ :=
                ih hothers (Nat.lt_trans afterEscape.property hbound)
              exact ⟨first :: (code ++ behind),
                congrArg (first :: ·) (eq_append_of_eq_append hcode hbehind),
                hslash ▸ .escaped hspells hrest⟩
          · next hslash =>
            obtain ⟨⟨others, last⟩, hothers, heq⟩ := Option.map_eq_some_iff.mp h
            cases heq
            obtain ⟨code, hcode, hrest⟩ := ih hothers hbound
            exact ⟨first :: code, congrArg (first :: ·) hcode,
              .plain hquote hslash hcontrol hrest⟩

end Strings

section Numbers

variable {text rest : List Char}

/-- A minus that is split off stands in front of what is left. -/
theorem signed_splitMinus (text : List Char) :
    Binary64.signed (splitMinus text).1 (splitMinus text).2 = text := by
  unfold splitMinus
  split <;> rfl

/-- The digits at the start of a text stand in front of what is left. -/
theorem spanDigits_fst_append (text : List Char) :
    (spanDigits text).1 ++ (spanDigits text).2 = text :=
  List.takeWhile_append_dropWhile

/-- The digits at the start of a text are digits. -/
theorem areDigits_spanDigits (text : List Char) : AreDigits (spanDigits text).1 :=
  fun _ hc => List.mem_takeWhile_imp hc

/-- A sign that is split off stands in front of what is left. -/
theorem exists_spellsSign (text : List Char) :
    ∃ sign, SpellsSign (splitSign text).1 sign ∧ text = sign ++ (splitSign text).2 := by
  unfold splitSign
  split
  · exact ⟨['-'], .minus, rfl⟩
  · exact ⟨['+'], .plus, rfl⟩
  · exact ⟨[], .absent, rfl⟩

/-- A fraction that is read consists of digits behind a point. -/
theorem eq_append_of_readFraction? {fraction : Option (List Char)}
    (h : readFraction? text = some (fraction, rest)) :
    text = fractionText fraction ++ rest ∧ (∀ digits ∈ fraction, digits ≠ []) ∧
      ∀ digits ∈ fraction, AreDigits digits := by
  unfold readFraction? at h
  split at h
  · next after =>
    dsimp only at h
    split at h
    · cases h
    · next hne =>
      cases h
      refine ⟨congrArg ('.' :: ·) (spanDigits_fst_append after).symm, ?_, ?_⟩
      · rintro _ ⟨⟩
        exact hne
      · rintro _ ⟨⟩
        exact areDigits_spanDigits after
  · cases h
    exact ⟨rfl, nofun, nofun⟩

/-- A power that is read is one of its texts. -/
theorem spellsPower_of_readExponent? {power : Option Int}
    (h : readExponent? text = some (power, rest)) :
    ∃ code, text = code ++ rest ∧ SpellsPower power code := by
  unfold readExponent? at h
  split at h
  · cases h
    exact ⟨[], rfl, .absent⟩
  · next mark after =>
    split at h
    · next hmark =>
      obtain ⟨sign, hsign, hafter⟩ := exists_spellsSign after
      unfold readPower? at h
      dsimp only at h
      by_cases hne : (spanDigits (splitSign after).2).1 = []
      · rw [if_pos hne] at h
        cases h
      · rw [if_neg hne] at h
        cases h
        exact ⟨mark :: (sign ++ (spanDigits (splitSign after).2).1),
          congrArg (mark :: ·) (eq_append_of_eq_append hafter (spanDigits_fst_append _).symm),
          .present hmark hsign hne (areDigits_spanDigits _)⟩
    · cases h
      exact ⟨[], rfl, .absent⟩

/-- What is read as a number is one of its texts. -/
theorem isSpelled_of_readNumber? {value : Number} (h : readNumber? text = some (value, rest)) :
    ∃ (number : NumberParts) (code : List Char), text = code ++ rest ∧ number.IsSpelled code ∧
      number.Denotes value := by
  unfold readNumber? at h
  dsimp only at h
  split at h
  · cases h
  · next hwhole =>
    obtain ⟨hne, hzero⟩ := not_or.mp hwhole
    split at h
    · cases h
    · next fraction afterFraction hfraction =>
      obtain ⟨hpoint, hfractionNe, hfractionDigits⟩ := eq_append_of_readFraction? hfraction
      split at h
      · cases h
      · next power afterPower hpower =>
        obtain ⟨code, hcode, hspells⟩ := spellsPower_of_readExponent? hpower
        obtain ⟨read, hread, heq⟩ := Option.map_eq_some_iff.mp h
        cases heq
        let number : NumberParts :=
          { negative := (splitMinus text).1
            whole := (spanDigits (splitMinus text).2).1
            fraction := fraction
            power := power
            whole_ne_nil := hne
            areDigits_whole := areDigits_spanDigits _
            zero_alone := fun hhead => not_not.mp fun hlength => hzero ⟨hhead, hlength⟩
            fraction_ne_nil := hfractionNe
            areDigits_fraction := hfractionDigits }
        refine ⟨number, _, ?_, ⟨code, hspells, rfl⟩, NumberParts.value?_eq_some_iff.mp hread⟩
        have hunsigned := eq_append_of_eq_append (spanDigits_fst_append (splitMinus text).2).symm
          (eq_append_of_eq_append hpoint hcode)
        rw [signed_append, ← hunsigned, signed_splitMinus]

end Numbers

section Values

variable {text rest : List Char} {json : Json}

/-- A word that is read stands in front of what is left. -/
theorem eq_append_of_dropWord? {word : List Char} (h : dropWord? word text = some rest) :
    text = word ++ rest := by
  induction word generalizing text with
  | nil =>
    cases h
    rfl
  | cons w word ih =>
    cases text with
    | nil => cases h
    | cons c text =>
      rw [dropWord?] at h
      split at h
      · next heq => rw [heq, ih h, List.cons_append]
      · cases h

/-- What is read as a value without parts is the text of one. -/
theorem spellsScalar_of_readScalar? {first : Char} {others : List Char}
    (h : readScalar? first others = some (json, rest)) :
    ∃ code, first :: others = code ++ rest ∧ SpellsScalar json code := by
  unfold readScalar? at h
  split at h
  · next hfirst =>
    obtain ⟨after, hword, heq⟩ := Option.map_eq_some_iff.mp h
    cases heq
    exact ⟨_, by rw [hfirst, eq_append_of_dropWord? hword]; rfl, .null⟩
  · split at h
    · next hfirst =>
      obtain ⟨after, hword, heq⟩ := Option.map_eq_some_iff.mp h
      cases heq
      exact ⟨_, by rw [hfirst, eq_append_of_dropWord? hword]; rfl, .isTrue⟩
    · split at h
      · next hfirst =>
        obtain ⟨after, hword, heq⟩ := Option.map_eq_some_iff.mp h
        cases heq
        exact ⟨_, by rw [hfirst, eq_append_of_dropWord? hword]; rfl, .isFalse⟩
      · split at h
        · next hfirst =>
          obtain ⟨⟨chars, after⟩, hchars, heq⟩ := Option.map_eq_some_iff.mp h
          cases heq
          obtain ⟨code, hcode, hspells⟩ := spellsString_of_readString? hchars
          refine ⟨'"' :: (code ++ ['"']), ?_, .string hspells⟩
          rw [hfirst, List.cons_append, List.append_assoc]
          exact congrArg ('"' :: ·) hcode
        · obtain ⟨⟨value, after⟩, hnumber, heq⟩ := Option.map_eq_some_iff.mp h
          cases heq
          obtain ⟨number, code, hcode, hspells, hdenotes⟩ := isSpelled_of_readNumber? hnumber
          exact ⟨code, hcode, .number hspells hdenotes⟩

/-- Blanks that are skipped stand in front of what is left. -/
theorem exists_isBlanks (text : List Char) :
    ∃ blanks, IsBlanks blanks ∧ text = blanks ++ skipBlanks text :=
  ⟨text.takeWhile isBlank, fun _ hc => List.mem_takeWhile_imp hc,
    List.takeWhile_append_dropWhile.symm⟩

/-- A mark that is found stands behind blanks. -/
theorem eq_append_of_afterMark? {mark : Char} {after : Remainder text}
    (h : afterMark? mark text = some after) :
    ∃ blanks, IsBlanks blanks ∧ text = blanks ++ mark :: after.val := by
  unfold afterMark? at h
  split at h
  · cases h
  · next c others hskip =>
    split at h
    · next heq =>
      cases h
      obtain ⟨blanks, hblanks, htext⟩ := exists_isBlanks text
      rw [hskip, heq] at htext
      exact ⟨blanks, hblanks, htext⟩
    · cases h

/-- What is read as a value is one behind blanks. -/
def ReadsValues (text : List Char) : Prop :=
  ∀ room json (after : Remainder text), readValue? room text = some (json, after) →
    ∃ blanks code, IsBlanks blanks ∧ text = blanks ++ (code ++ after.val) ∧
      SpellsPart room (.value json) code

/-- What is read as items up to a bracket are such items. -/
def ReadsItems (text : List Char) : Prop :=
  ∀ room items (after : Remainder text), readItems? room text = some (items, after) →
    ∃ code, text = code ++ ']' :: after.val ∧ SpellsPart room (.items items) code

/-- What is read as members up to a bracket are such members. -/
def ReadsMembers (text : List Char) : Prop :=
  ∀ room members (after : Remainder text), readMembers? room text = some (members, after) →
    ∃ code, text = code ++ '\x7d' :: after.val ∧ SpellsPart room (.members members) code

/-- A text between brackets stands in front of what is left. -/
theorem eq_append_of_brackets {opening closing : Char} {blanks code others : List Char}
    (h : text = blanks ++ opening :: others) (hothers : others = code ++ closing :: rest) :
    text = blanks ++ ((opening :: (code ++ [closing])) ++ rest) := by
  rw [h, hothers, List.cons_append, List.append_assoc, List.singleton_append]

/-- Values are read as values where the items and members inside them are. -/
theorem readsValues_of_shorter
    (hitems : ∀ shorter : List Char, shorter.length < text.length → ReadsItems shorter)
    (hmembers : ∀ shorter : List Char, shorter.length < text.length → ReadsMembers shorter) :
    ReadsValues text := by
  intro room json after h
  obtain ⟨blanks, hblanks, htext⟩ := exists_isBlanks text
  rw [readValue?] at h
  split at h
  · cases h
  · next first others hskip =>
    have hshorter : others.length < text.length := by
      have := length_skipBlanks text
      rw [hskip] at this
      exact this
    rw [hskip] at htext
    split at h
    · next hlist =>
      rw [hlist] at htext
      split at h
      · cases h
      · next hroom =>
        obtain ⟨inside, rfl⟩ := Nat.exists_eq_succ_of_ne_zero hroom
        split at h
        · next close hclose =>
          cases h
          obtain ⟨inner, hinner, hothers⟩ := eq_append_of_afterMark? hclose
          exact ⟨blanks, _, hblanks, eq_append_of_brackets htext hothers, .emptyList hinner⟩
        · obtain ⟨⟨items, close⟩, hread, heq⟩ := Option.map_eq_some_iff.mp h
          cases heq
          obtain ⟨code, hothers, hspells⟩ := hitems others hshorter _ _ _ hread
          exact ⟨blanks, _, hblanks, eq_append_of_brackets htext hothers, .list hspells⟩
    · split at h
      · next hobject =>
        rw [hobject] at htext
        split at h
        · cases h
        · next hroom =>
          obtain ⟨inside, rfl⟩ := Nat.exists_eq_succ_of_ne_zero hroom
          split at h
          · next close hclose =>
            cases h
            obtain ⟨inner, hinner, hothers⟩ := eq_append_of_afterMark? hclose
            exact ⟨blanks, _, hblanks, eq_append_of_brackets htext hothers, .emptyObject hinner⟩
          · obtain ⟨⟨members, close⟩, hread, heq⟩ := Option.map_eq_some_iff.mp h
            cases heq
            obtain ⟨code, hothers, hspells⟩ := hmembers others hshorter _ _ _ hread
            exact ⟨blanks, _, hblanks, eq_append_of_brackets htext hothers, .object hspells⟩
      · split at h
        · cases h
        · next value behind hscalar =>
          cases h
          obtain ⟨code, hcode, hspells⟩ := spellsScalar_of_readScalar? hscalar
          exact ⟨blanks, code, hblanks, htext.trans (congrArg (blanks ++ ·) hcode), .scalar hspells⟩

/-- A value with the blanks around it stands in front of the mark behind it. -/
theorem eq_append_of_padded {before code middle behind : List Char}
    (h : text = before ++ (code ++ middle)) (hmiddle : middle = behind ++ rest) :
    text = (before ++ (code ++ behind)) ++ rest := by
  rw [h, hmiddle, List.append_assoc, List.append_assoc]

/-- Items are read as items where values and later items are. -/
theorem readsItems_of_shorter (hvalues : ReadsValues text)
    (hitems : ∀ shorter : List Char, shorter.length < text.length → ReadsItems shorter) :
    ReadsItems text := by
  intro room items after h
  rw [readItems?] at h
  split at h
  · cases h
  · next item afterItem hitem =>
    obtain ⟨before, code, hbefore, htext, hspells⟩ := hvalues _ _ _ hitem
    split at h
    · next close hclose =>
      cases h
      obtain ⟨behind, hbehind, hafter⟩ := eq_append_of_afterMark? hclose
      exact ⟨_, eq_append_of_padded htext hafter, .lastItem (.padded hbefore hspells hbehind)⟩
    · split at h
      · cases h
      · next afterComma hcomma =>
        obtain ⟨⟨others, last⟩, hothers, heq⟩ := Option.map_eq_some_iff.mp h
        cases heq
        obtain ⟨behind, hbehind, hafter⟩ := eq_append_of_afterMark? hcomma
        have hshorter := Nat.lt_trans afterComma.property afterItem.property
        obtain ⟨codes, hcodes, hrest⟩ := hitems _ hshorter _ _ _ hothers
        exact ⟨_, @eq_append_of_eq_append _ _ _ (',' :: codes) _ (eq_append_of_padded htext hafter)
          (congrArg (',' :: ·) hcodes), .item (.padded hbefore hspells hbehind) hrest⟩

/-- A name with its colon stands in front of what is left. -/
theorem exists_spellsName {before letters between afterQuote afterName chars : List Char}
    (hbefore : IsBlanks before) (h : text = before ++ '"' :: afterQuote)
    (hchars : SpellsString chars letters) (hletters : afterQuote = letters ++ '"' :: afterName)
    (hbetween : IsBlanks between) (hcolon : afterName = between ++ ':' :: rest) :
    ∃ front, text = front ++ rest ∧ SpellsName (String.ofList chars) front := by
  refine ⟨_, ?_, .of hbefore hchars hbetween⟩
  rw [h, hletters, hcolon]
  simp only [List.append_assoc, List.cons_append, List.nil_append]

/-- Members are read as members where shorter values and members are. -/
theorem readsMembers_of_shorter
    (hvalues : ∀ shorter : List Char, shorter.length < text.length → ReadsValues shorter)
    (hmembers : ∀ shorter : List Char, shorter.length < text.length → ReadsMembers shorter) :
    ReadsMembers text := by
  intro room members after h
  rw [readMembers?] at h
  split at h
  · cases h
  · next afterQuote hquote =>
    obtain ⟨front, hfront, htext⟩ := eq_append_of_afterMark? hquote
    split at h
    · cases h
    · next chars afterName hname =>
      obtain ⟨letters, hletters, hchars⟩ := spellsString_of_readString? hname
      split at h
      · cases h
      · next afterColon hcolon =>
        obtain ⟨between, hbetween, hafterName⟩ := eq_append_of_afterMark? hcolon
        obtain ⟨head, hhead, hspellsName⟩ :=
          exists_spellsName hfront htext hchars hletters hbetween hafterName
        dsimp only at h
        have hstart := Nat.lt_trans afterColon.property
          (Nat.lt_trans afterName.property afterQuote.property)
        split at h
        · cases h
        · next json afterValue hvalue =>
          obtain ⟨before, code, hbefore, hcode, hspells⟩ := hvalues _ hstart _ _ _ hvalue
          split at h
          · next close hclose =>
            cases h
            obtain ⟨behind, hbehind, hafter⟩ := eq_append_of_afterMark? hclose
            exact ⟨_, eq_append_of_eq_append hhead (eq_append_of_padded hcode hafter),
              .lastMember hspellsName (.padded hbefore hspells hbehind)⟩
          · split at h
            · cases h
            · next afterComma hcomma =>
              obtain ⟨⟨others, last⟩, hothers, heq⟩ := Option.map_eq_some_iff.mp h
              cases heq
              obtain ⟨behind, hbehind, hafter⟩ := eq_append_of_afterMark? hcomma
              have hshorter := Nat.lt_trans afterComma.property
                (Nat.lt_trans afterValue.property hstart)
              obtain ⟨codes, hcodes, hrest⟩ := hmembers _ hshorter _ _ _ hothers
              have hmember := @eq_append_of_eq_append _ _ _ (',' :: codes) _
                (eq_append_of_padded hcode hafter) (congrArg (',' :: ·) hcodes)
              exact ⟨_, eq_append_of_eq_append hhead hmember,
                .member hspellsName (.padded hbefore hspells hbehind) hrest⟩

/-- Everything that is read is what its text stands for. -/
theorem reads (text : List Char) : ReadsValues text ∧ ReadsItems text ∧ ReadsMembers text := by
  obtain ⟨bound, hbound⟩ : ∃ bound, text.length < bound := ⟨_, Nat.lt_succ_self _⟩
  induction bound generalizing text with
  | zero => cases hbound
  | succ bound ih =>
    have hshorter (shorter : List Char) (h : shorter.length < text.length) :=
      ih shorter (Nat.lt_of_lt_of_le h (Nat.le_of_lt_succ hbound))
    have hitems (shorter : List Char) (h : shorter.length < text.length) := (hshorter shorter h).2.1
    have hmembers (shorter : List Char) (h : shorter.length < text.length) :=
      (hshorter shorter h).2.2
    have hvalues := readsValues_of_shorter hitems hmembers
    exact ⟨hvalues, readsItems_of_shorter hvalues hitems,
      readsMembers_of_shorter (fun shorter h => (hshorter shorter h).1) hmembers⟩

/-- The texts that are read to a value are those that stand for it by the grammar. -/
theorem ofText?_eq_some_iff {text : String} {json : Json} :
    ofText? text = some json ↔ IsText text json := by
  refine ⟨fun h => ?_, IsText.ofText?_eq⟩
  unfold ofText? at h
  split at h
  · next value after hvalue =>
    split at h
    · next hend =>
      cases h
      obtain ⟨before, code, hbefore, hcode, hspells⟩ := (reads text.toList).1 _ _ _ hvalue
      obtain ⟨behind, hbehind, hafter⟩ := exists_isBlanks after.val
      rw [hend] at hafter
      have htext := eq_append_of_padded hcode hafter
      rw [List.append_nil] at htext
      rw [IsText, htext]
      exact .padded hbefore hspells hbehind
    · cases h
  · cases h

end Values


end ScalarExpr.Json
