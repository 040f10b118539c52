import ScalarExpr.Json.Scalar
import ScalarExpr.Proofs.Json.Grammar
import ScalarExpr.Proofs.Json.Written

/-!
# Values that are read back

What is written for a value is the text of a scalar in JSON, and is read to the value again. NaN and
the infinities are written as null and read as null. So the object that holds nothing but the text of
a value is read to one binding of this value.
-/

namespace ScalarExpr

open Json

/-- What is left of a value in JSON, which has no number for NaN and the infinities. -/
def Value.kept : Value → Value
  | .number (.float x) =>
    match Binary64.decode x with
    | .finite _ _ _ => .number (.float x)
    | _ => .null
  | value => value

/-- A double is read back as it was written. Other values always are. -/
def Value.ReadsBack : Value → Prop
  | .number (.float x) => Binary64.ReadsBack x
  | _ => True

/-- A value in JSON. -/
def Value.toJson (value : Value) : Json :=
  match value.kept with
  | .null => .null
  | .boolean value => .boolean value
  | .number value => .number value
  | .string value => .string value

/-- A value in JSON stands for what is left of the value. -/
theorem Value.toValue?_toJson (value : Value) : value.toJson.toValue? = some value.kept := by
  unfold toJson
  cases value.kept <;> rfl

/-- What is written for a value is the text of the value in JSON. -/
theorem Value.spellsScalar_jsonText {value : Value} (h : value.ReadsBack) :
    SpellsScalar value.toJson value.jsonText.toList := by
  cases value with
  | null => exact .null
  | boolean value =>
    cases value with
    | true => exact .isTrue
    | false => exact .isFalse
  | string value =>
    have hstring := SpellsScalar.string (spellsString_escape value.toList)
    rw [String.ofList_toList] at hstring
    rwa [jsonText, quote, String.toList_ofList]
  | number value =>
    cases value with
    | integer value =>
      obtain ⟨number, hspelled, hdenotes⟩ := exists_isSpelled_decimalText value
      exact .number hspelled hdenotes
    | float x =>
      cases hdecode : Binary64.decode x with
      | finite negative mantissa step =>
        obtain ⟨number, hspelled, hdenotes⟩ := Binary64.exists_isSpelled_magnitude hdecode h
        simp only [jsonText, Number.jsonText, Binary64.jsonText, toJson, kept, hdecode,
          String.toList_ofList]
        exact .number hspelled hdenotes
      | nan | infinity negative =>
        simp only [jsonText, Number.jsonText, Binary64.jsonText, toJson, kept, hdecode]
        exact .null

/-- The JSON text of a value that reads back is read to the value in JSON. -/
theorem Value.isScalar_jsonText {value : Value} (h : value.ReadsBack) :
    IsScalar value.jsonText.toList value.toJson :=
  (Value.spellsScalar_jsonText h).isScalar

namespace Json

/-- The texts of objects that have one member, with this name and this text as its value. -/
inductive SoleMember (name value : String) : String → Prop
  | of {front beforeName beforeColon beforeValue behindValue back : List Char} :
    IsBlanks front → IsBlanks beforeName → IsBlanks beforeColon → IsBlanks beforeValue →
    IsBlanks behindValue → IsBlanks back →
    SoleMember name value (String.ofList (front ++ '\x7b' :: (beforeName ++ ((quote name).toList ++
      (beforeColon ++ ':' :: (beforeValue ++ (value.toList ++
        (behindValue ++ '\x7d' :: back))))))))

/-- The text of an object with one member that is a scalar is one of this object. -/
theorem SoleMember.isText {name value source : String} {json : Json}
    (h : SoleMember name value source) (hvalue : SpellsScalar json value.toList) :
    IsText source (.object [(name, json)]) := by
  cases h with
  | @of front beforeName beforeColon beforeValue behindValue back hfront hbeforeName hbeforeColon
      hbeforeValue hbehindValue hback =>
    have hname := SpellsName.of hbeforeName (spellsString_escape name.toList) hbeforeColon
    rw [String.ofList_toList] at hname
    have hobject : SpellsPart nesting (.padded (.object [(name, json)])) _ :=
      .padded hfront (.object (.lastMember hname (.padded hbeforeValue (.scalar hvalue)
        hbehindValue))) hback
    rw [IsText, String.toList_ofList]
    simpa only [quote, String.toList_ofList, List.append_assoc, List.cons_append,
      List.nil_append] using hobject

end Json

/-- Variables that hold nothing but the text of a value bind what is left of it. -/
theorem Variables.load_of_soleMember {name source : String} {value : Value}
    (h : SoleMember name value.jsonText source) (hreads : value.ReadsBack) :
    ∃ vars, Variables.load source = .ok vars ∧ vars.bindings = [(name, value.kept)] := by
  have hsource := (h.isText (Value.spellsScalar_jsonText hreads)).ofText?_eq
  have hmembers : ofMembers (NameMap.ofList [(name, value.toJson)]).bindings =
      .ok [(name, value.kept)] := by
    show ofMembers [(name, value.toJson)] = _
    simp only [ofMembers, value.toValue?_toJson]
    rfl
  refine ⟨NameMap.ofList [(name, value.kept)], ?_, rfl⟩
  rw [load, hsource]
  exact congrArg (Except.map _) hmembers

end ScalarExpr
