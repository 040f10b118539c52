import ScalarExpr.Proofs.Json.Members
import ScalarExpr.Proofs.Json.Recognized
import ScalarExpr.Proofs.Json.Refused
import ScalarExpr.Proofs.Text.ByteOrder
import Mathlib.Data.List.Forall2

/-!
# Loading variables

An object holds variables if the last member of each of its names is a scalar, and then binds its
names to these scalars, all of them and no others. Lists and objects that a later member replaces do
no harm. Otherwise the name whose last member is a list or an object and that comes first by its
bytes is reported, with the kind of this member. So what is loaded does not depend on the order in
which members with different names are written.
-/

namespace ScalarExpr

open Json NameMap

/-- The kind of each value in JSON. -/
inductive Json.HasKind : Json → Json.Kind → Prop
  | null : HasKind .null .null
  | boolean {value : Bool} : HasKind (.boolean value) .boolean
  | number {value : Number} : HasKind (.number value) .number
  | string {value : String} : HasKind (.string value) .string
  | array {items : List Json} : HasKind (.array items) .array
  | object {members : List (String × Json)} : HasKind (.object members) .object

/-- The value of each scalar: null, a truth value, an integer, a double or a text. -/
inductive Json.StandsFor : Json → Value → Prop
  | null : StandsFor .null .null
  | boolean {value : Bool} : StandsFor (.boolean value) (.boolean value)
  | integer {value : Int64} : StandsFor (.number (.integer value)) (.number (.integer value))
  | float {value : Float} : StandsFor (.number (.float value)) (.number (.float value))
  | string {value : String} : StandsFor (.string value) (.string value)

/-- Lists and objects, with their kinds. -/
inductive Json.IsNested : Json → Json.Kind → Prop
  | array {items : List Json} : IsNested (.array items) .array
  | object {members : List (String × Json)} : IsNested (.object members) .object

/-- A value has one kind. -/
theorem Json.hasKind_iff {json : Json} {kind : Json.Kind} : json.HasKind kind ↔ kind = json.kind := by
  constructor
  · rintro ⟨⟩ <;> rfl
  · rintro rfl
    cases json <;> constructor

/-- Scalars are converted to what they stand for. -/
theorem Json.toValue?_eq_some_iff {json : Json} {value : Value} :
    json.toValue? = some value ↔ json.StandsFor value := by
  constructor
  · intro h
    cases json with
    | null | boolean | string =>
      cases h
      constructor
    | number number =>
      cases h
      cases number <;> constructor
    | array | object => cases h
  · rintro ⟨⟩ <;> rfl

/-- Lists and objects are not converted. -/
theorem Json.IsNested.toValue?_eq_none {json : Json} {kind : Json.Kind} (h : json.IsNested kind) :
    json.toValue? = none := by
  cases h <;> rfl

/-- What is not converted is a list or an object. -/
theorem Json.isNested_of_toValue?_eq_none {json : Json} (h : json.toValue? = none) :
    json.IsNested json.kind := by
  cases json with
  | array | object => constructor
  | null | boolean | number | string => cases h

/-- What is loaded from an object with these members, told by the last member of each name. -/
structure LoadsLast (members : List (String × Json)) (result : Except LoadError Variables) :
    Prop where
  ok_iff : (∃ vars, result = .ok vars) ↔
    ∀ name json, lastValue? members name = some json → ∃ value, json.StandsFor value
  names : ∀ vars, result = .ok vars →
    ∀ name, name ∈ vars.bindings.map Prod.fst ↔ name ∈ members.map Prod.fst
  values : ∀ vars, result = .ok vars → ∀ name json, lastValue? members name = some json →
    ∃ value, json.StandsFor value ∧ vars.find? name = some value
  error : ∀ error, result = .error error →
    ∃ name json kind, error = .unsupported name kind ∧ lastValue? members name = some json ∧
      json.IsNested kind ∧ ∀ other found kind, lastValue? members other = some found →
        found.IsNested kind → other ≠ name → utf8Bytes name < utf8Bytes other

namespace Variables

section OfMembers

variable {members : List (String × Json)} {values : List (String × Value)} {error : LoadError}

/-- A binding of what a member stands for to the name of the member. -/
def Binds (member : String × Json) (binding : String × Value) : Prop :=
  binding.1 = member.1 ∧ member.2.toValue? = some binding.2

/-- Where there is no error every member is bound. -/
theorem forall₂_of_ofMembers (h : ofMembers members = .ok values) :
    List.Forall₂ Binds members values := by
  induction members generalizing values with
  | nil =>
    cases h
    exact .nil
  | cons member rest ih =>
    obtain ⟨name, json⟩ := member
    rw [ofMembers] at h
    cases hvalue : json.toValue? with
    | none =>
      rw [hvalue] at h
      cases h
    | some value =>
      rw [hvalue] at h
      cases hrest : ofMembers rest with
      | error error =>
        rw [hrest] at h
        cases h
      | ok bound =>
        rw [hrest] at h
        cases h
        exact .cons ⟨rfl, hvalue⟩ (ih hrest)

/-- The error is that of the first member that stands for no value. -/
theorem split_of_ofMembers (h : ofMembers members = .error error) :
    ∃ before name json after, members = before ++ (name, json) :: after ∧
      (∀ member ∈ before, member.2.toValue? ≠ none) ∧ json.toValue? = none ∧
      error = .unsupported name json.kind := by
  induction members with
  | nil => cases h
  | cons member rest ih =>
    obtain ⟨name, json⟩ := member
    rw [ofMembers] at h
    cases hvalue : json.toValue? with
    | none =>
      rw [hvalue] at h
      cases h
      have hnil : ∀ member ∈ ([] : List (String × Json)), member.2.toValue? ≠ none :=
        fun _ hmember => absurd hmember List.not_mem_nil
      exact ⟨[], name, json, rest, rfl, hnil, hvalue, rfl⟩
    | some value =>
      rw [hvalue] at h
      cases hrest : ofMembers rest with
      | ok bound =>
        rw [hrest] at h
        cases h
      | error found =>
        rw [hrest] at h
        cases h
        obtain ⟨before, other, found, after, rfl, hbefore, hfound⟩ := ih hrest
        refine ⟨(name, json) :: before, other, found, after, rfl, fun member hmember => ?_, hfound⟩
        rcases List.mem_cons.mp hmember with rfl | hmember
        · simp [hvalue]
        · exact hbefore member hmember

/-- Bindings of members have their names. -/
theorem map_fst_of_forall₂ (h : List.Forall₂ Binds members values) :
    values.map Prod.fst = members.map Prod.fst := by
  induction h with
  | nil => rfl
  | cons hbinds _ ih => rw [List.map_cons, List.map_cons, hbinds.1, ih]

/-- Bound members are scalars. -/
theorem exists_standsFor_of_forall₂ (h : List.Forall₂ Binds members values)
    {member : String × Json} (hmember : member ∈ members) : ∃ value, member.2.StandsFor value := by
  induction h with
  | nil => cases hmember
  | cons hbinds _ ih =>
    rcases List.mem_cons.mp hmember with rfl | hmember
    · exact ⟨_, toValue?_eq_some_iff.mp hbinds.2⟩
    · exact ih hmember

/-- A name is bound to what its member stands for. -/
theorem lookup_of_forall₂ (h : List.Forall₂ Binds members values) (name : String) :
    lookup name values = (lookup name members).bind Json.toValue? := by
  induction h with
  | nil => rfl
  | @cons member binding _ _ hbinds _ ih =>
    rw [lookup, lookup, hbinds.1]
    split
    · exact hbinds.2.symm
    · exact ih

end OfMembers

section OfJson

variable {members : List (String × Json)} {vars : Variables} {error : LoadError}

/-- A last member is bound in the map of the members. -/
theorem mem_bindings_iff_lastValue? {name : String} {json : Json} :
    (name, json) ∈ (ofList members).bindings ↔ lastValue? members name = some json := by
  rw [mem_bindings_iff, find?_ofList]

/-- The variables of an object are made of the values of the map of its members. -/
theorem forall₂_of_ofJson (h : ofJson (.object members) = .ok vars) :
    ∃ values, List.Forall₂ Binds (ofList members).bindings values ∧ vars = ofList values := by
  cases hvalues : ofMembers (ofList members).bindings with
  | error error =>
    rw [ofJson, hvalues] at h
    cases h
  | ok values =>
    rw [ofJson, hvalues] at h
    cases h
    exact ⟨values, forall₂_of_ofMembers hvalues, rfl⟩

/-- Each name is bound to what its last member stands for. -/
theorem find?_of_ofJson (h : ofJson (.object members) = .ok vars) (name : String) :
    vars.find? name = (lastValue? members name).bind Json.toValue? := by
  obtain ⟨values, hbinds, rfl⟩ := forall₂_of_ofJson h
  have hsorted : values.Pairwise (·.1 < ·.1) := by
    have hnames := List.pairwise_map.mpr (ofList members).sorted
    rw [← map_fst_of_forall₂ hbinds] at hnames
    exact List.pairwise_map.mp hnames
  calc
    (ofList values).find? name = lookup name values :=
      congrArg (find? · name) (ofList_bindings ⟨values, hsorted⟩)
    _ = (lookup name (ofList members).bindings).bind Json.toValue? := lookup_of_forall₂ hbinds name
    _ = (lastValue? members name).bind Json.toValue? :=
      congrArg (Option.bind · Json.toValue?) (find?_ofList members name)

/-- Where variables are loaded every last member is a scalar. -/
theorem exists_standsFor_of_ofJson (h : ofJson (.object members) = .ok vars) {name : String}
    {json : Json} (hlast : lastValue? members name = some json) : ∃ value, json.StandsFor value := by
  obtain ⟨values, hbinds, -⟩ := forall₂_of_ofJson h
  exact exists_standsFor_of_forall₂ hbinds (mem_bindings_iff_lastValue?.mpr hlast)

/-- Each name is bound to the value of its last member. -/
theorem find?_eq_some_of_ofJson (h : ofJson (.object members) = .ok vars) {name : String}
    {json : Json} (hlast : lastValue? members name = some json) :
    ∃ value, json.StandsFor value ∧ vars.find? name = some value := by
  obtain ⟨value, hvalue⟩ := exists_standsFor_of_ofJson h hlast
  refine ⟨value, hvalue, ?_⟩
  rw [find?_of_ofJson h, hlast, Option.bind_some, toValue?_eq_some_iff.mpr hvalue]

/-- The names that are bound are those of the members. -/
theorem names_of_ofJson (h : ofJson (.object members) = .ok vars) (name : String) :
    name ∈ vars.bindings.map Prod.fst ↔ name ∈ members.map Prod.fst := by
  rw [← isSome_lastValue?, ← isSome_lastValue?, lastValue?_bindings, find?_of_ofJson h]
  cases hlast : lastValue? members name with
  | none => rfl
  | some json =>
    obtain ⟨value, hvalue⟩ := exists_standsFor_of_ofJson h hlast
    simp [toValue?_eq_some_iff.mpr hvalue]

/-- The error is that of the first name, by its bytes, whose last member is no scalar. -/
theorem first_of_ofJson (h : ofJson (.object members) = .error error) :
    ∃ name json kind, error = .unsupported name kind ∧ lastValue? members name = some json ∧
      json.IsNested kind ∧ ∀ other found kind, lastValue? members other = some found →
        found.IsNested kind → other ≠ name → utf8Bytes name < utf8Bytes other := by
  cases hvalues : ofMembers (ofList members).bindings with
  | ok values =>
    rw [ofJson, hvalues] at h
    cases h
  | error raised =>
    rw [ofJson, hvalues] at h
    cases h
    obtain ⟨before, name, json, after, hsplit, hbefore, hjson, rfl⟩ := split_of_ofMembers hvalues
    have hsorted := (ofList members).sorted
    rw [hsplit] at hsorted
    have hafter := (List.pairwise_cons.mp (List.pairwise_append.mp hsorted).2.1).1
    refine ⟨name, json, json.kind, rfl, ?_, isNested_of_toValue?_eq_none hjson,
      fun other found kind hlast hfound hne => ?_⟩
    · rw [← mem_bindings_iff_lastValue?, hsplit]
      exact List.mem_append_right before List.mem_cons_self
    · -- No member before the reported one is nested, and those behind it have larger names.
      have hmem := mem_bindings_iff_lastValue?.mpr hlast
      rw [hsplit, List.mem_append, List.mem_cons] at hmem
      rcases hmem with hmem | heq | hmem
      · exact absurd hfound.toValue?_eq_none (hbefore _ hmem)
      · exact absurd (congrArg Prod.fst heq) hne
      · exact utf8Bytes_lt_of_lt (hafter _ hmem)

/-- What is loaded from the members of an object is told by their last members. -/
theorem loadsLast_ofJson (members : List (String × Json)) :
    LoadsLast members (ofJson (.object members)) where
  ok_iff := by
    refine ⟨fun ⟨vars, h⟩ name json hlast => exists_standsFor_of_ofJson h hlast,
      fun hscalars => ?_⟩
    cases hresult : ofJson (.object members) with
    | ok vars => exact ⟨vars, rfl⟩
    | error error =>
      obtain ⟨name, json, kind, -, hlast, hnested, -⟩ := first_of_ofJson hresult
      obtain ⟨value, hvalue⟩ := hscalars name json hlast
      rw [← toValue?_eq_some_iff, hnested.toValue?_eq_none] at hvalue
      cases hvalue
  names _ h := names_of_ofJson h
  values _ h _ _ hlast := find?_eq_some_of_ofJson h hlast
  error _ h := first_of_ofJson h

/-- What is loaded does not depend on the order of members with different names. -/
theorem ofJson_of_reordered {others : List (String × Json)} (h : Reordered members others) :
    ofJson (.object members) = ofJson (.object others) := by
  have hmaps : ofList members = ofList others := by
    refine ext_find? fun name => ?_
    rw [find?_ofList, find?_ofList, h.lastValue?_eq]
  rw [ofJson, ofJson, hmaps]

end OfJson

/-- What is loaded from a text is what is loaded from the value that it stands for. -/
theorem load_eq_ofJson {text : String} {json : Json} (h : IsText text json) :
    load text = ofJson json := by
  rw [load, h.ofText?_eq]

/-- A text is malformed if it stands for nothing by the grammar. -/
theorem load_eq_malformed_iff {text : String} :
    load text = .error .malformed ↔ ∀ json, ¬ IsText text json := by
  refine ⟨fun h json hjson => ?_, fun h => ?_⟩
  · rw [load_eq_ofJson hjson] at h
    cases json with
    | object members =>
      obtain ⟨name, json, kind, herror, -⟩ := (loadsLast_ofJson members).error _ h
      cases herror
    | _ => cases h
  · have hnone : Json.ofText? text = none :=
      Option.eq_none_iff_forall_ne_some.mpr fun json hjson => h json (ofText?_eq_some_iff.mp hjson)
    rw [load, hnone]

/-- What is loaded from a text. An object is loaded whole or not at all, by its last members and
whatever the order of members with different names; any other value is reported with its kind, and a
text that is not read as one is malformed. That a number is an integer or a double is told from its
text by `NumberParts.Denotes`. -/
theorem load_by_grammar (text : String) :
    (∀ members, IsText text (.object members) → LoadsLast members (load text) ∧
      ∀ other others, IsText other (.object others) → Reordered members others →
        load other = load text) ∧
    (∀ json, IsText text json → (∀ members, json ≠ .object members) →
      ∃ kind, json.HasKind kind ∧ load text = .error (.notAnObject kind)) ∧
    (load text = .error .malformed ↔ ∀ json, ¬ IsText text json) := by
  refine ⟨fun members h => ?_, fun json h hother => ?_, load_eq_malformed_iff⟩
  · rw [load_eq_ofJson h]
    refine ⟨loadsLast_ofJson members, fun other others hothers hreordered => ?_⟩
    rw [load_eq_ofJson hothers, ofJson_of_reordered hreordered]
  · refine ⟨json.kind, hasKind_iff.mpr rfl, ?_⟩
    rw [load_eq_ofJson h]
    cases json with
    | object members => exact absurd rfl (hother members)
    | _ => rfl

/-- A list may be replaced by a later integer, and members with other names may stand anywhere. -/
theorem load_of_replaced_list :
    (∃ vars, load "\x7b\"b\":[],\"a\":2.5,\"c\":\"x\",\"b\":-7\x7d" = .ok vars ∧
        vars.find? "a" = some (.number (.float 2.5)) ∧
        vars.find? "b" = some (.number (.integer (-7))) ∧ vars.find? "c" = some (.string "x")) ∧
      load "\x7b\"a\":2.5,\"b\":[],\"c\":\"x\",\"b\":-7\x7d" =
        load "\x7b\"b\":[],\"a\":2.5,\"c\":\"x\",\"b\":-7\x7d" ∧
      load "[]" = .error (.notAnObject .array) := by
  have hname {c : Char} (hquote : c ≠ '"') (hslash : c ≠ '\\') (hcontrol : ¬ c.toNat < 0x20) :
      SpellsName (String.ofList [c]) ['"', c, '"', ':'] :=
    .of isBlanks_nil (.plain hquote hslash hcontrol .nil) isBlanks_nil
  have hpadded {room : Nat} {json : Json} {text : List Char}
      (h : SpellsPart room (.value json) text) : SpellsPart room (.padded json) (text ++ []) :=
    .padded isBlanks_nil h isBlanks_nil
  have hobject {members : List (String × Json)} {text : List Char}
      (h : SpellsPart 126 (.members members) text) :
      SpellsPart nesting (.padded (.object members)) ('\x7b' :: (text ++ ['\x7d']) ++ []) :=
    hpadded (.object h)
  have ha := @hname 'a' (by decide) (by decide) (by decide)
  have hb := @hname 'b' (by decide) (by decide) (by decide)
  have hc := @hname 'c' (by decide) (by decide) (by decide)
  have hdigit {c : Char} (hc : c.isDigit) : Numeral.AreDigits [c] := List.forall_mem_singleton.mpr hc
  let whole : NumberParts :=
    ⟨true, ['7'], none, none, by decide, hdigit rfl, fun _ => rfl, nofun, nofun⟩
  let decimal : NumberParts :=
    ⟨false, ['2'], some ['5'], none, by decide, hdigit rfl, fun _ => rfl, by simp,
      fun _ hdigits => Option.some.inj hdigits ▸ hdigit rfl⟩
  have hlist := @hpadded 126 _ _ (.emptyList isBlanks_nil)
  have hwhole : assemble? true ['7'] [] 0 true = some (.integer (-7)) := by decide +kernel
  have hdecimal : assemble? false ['2'] ['5'] 0 false = some (.float 2.5) := by decide +kernel
  have hinteger : SpellsPart 126 (.padded (.number (.integer (-7)))) (['-', '7'] ++ []) :=
    hpadded (.scalar (.number whole.isSpelled_text (NumberParts.value?_eq_some_iff.mp hwhole)))
  have hfloat : SpellsPart 126 (.padded (.number (.float 2.5))) (['2', '.', '5'] ++ []) :=
    hpadded (.scalar (.number decimal.isSpelled_text (NumberParts.value?_eq_some_iff.mp hdecimal)))
  have hstring : SpellsPart 126 (.padded (.string "x")) (['"', 'x', '"'] ++ []) :=
    hpadded (.scalar (.string (.plain (by decide) (by decide) (by decide) .nil)))
  have htext : IsText "\x7b\"b\":[],\"a\":2.5,\"c\":\"x\",\"b\":-7\x7d"
      (.object [("b", .array []), ("a", .number (.float 2.5)), ("c", .string "x"),
        ("b", .number (.integer (-7)))]) :=
    hobject (.member hb hlist (.member ha hfloat (.member hc hstring (.lastMember hb hinteger))))
  have hother : IsText "\x7b\"a\":2.5,\"b\":[],\"c\":\"x\",\"b\":-7\x7d"
      (.object [("a", .number (.float 2.5)), ("b", .array []), ("c", .string "x"),
        ("b", .number (.integer (-7)))]) :=
    hobject (.member ha hfloat (.member hb hlist (.member hc hstring (.lastMember hb hinteger))))
  have hempty : IsText "[]" (.array []) := hpadded (.emptyList isBlanks_nil)
  obtain ⟨hloads, horder⟩ := (load_by_grammar _).1 _ htext
  obtain ⟨vars, hvars⟩ := hloads.ok_iff.mpr fun name json hlast => by
    have hmember := mem_of_lastValue? hlast
    simp only [List.mem_cons, List.not_mem_nil, or_false, Prod.mk.injEq] at hmember
    rcases hmember with ⟨rfl, rfl⟩ | ⟨-, rfl⟩ | ⟨-, rfl⟩ | ⟨-, rfl⟩
    · cases hlast
    · exact ⟨_, .float⟩
    · exact ⟨_, .string⟩
    · exact ⟨_, .integer⟩
  obtain ⟨_, ⟨⟩, hfindA⟩ := hloads.values vars hvars "a" _ rfl
  obtain ⟨_, ⟨⟩, hfindB⟩ := hloads.values vars hvars "b" _ rfl
  obtain ⟨_, ⟨⟩, hfindC⟩ := hloads.values vars hvars "c" _ rfl
  obtain ⟨_, ⟨⟩, harray⟩ := (load_by_grammar _).2.1 _ hempty nofun
  exact ⟨⟨vars, hvars, hfindA, hfindB, hfindC⟩,
    horder _ _ hother (reordered_swap (by decide) [] _), harray⟩

/-- Objects that are JSON but not read: the only member of one is a number without a finite double,
and that of the other is a list inside which lists are nested too deep. -/
theorem load_beyond_bounds :
    let name := ['"', 'a', '"', ':']
    let object (member : List Char) : String := String.ofList ('\x7b' :: (name ++ (member ++ ['\x7d'])))
    let number := ['1', 'e', '4', '0', '0']
    let lists := List.replicate 127 '[' ++ List.replicate 127 ']'
    SpellsName "a" name ∧
      (∃ parts : NumberParts, parts.IsSpelled number) ∧ load (object number) = .error .malformed ∧
      (∃ items, SpellsPart 127 (.value (.array items)) lists) ∧
      load (object lists) = .error .malformed := by
  intro name object number lists
  have hname : SpellsName "a" name :=
    .of isBlanks_nil (.plain (by decide) (by decide) (by decide) .nil) isBlanks_nil
  have hmalformed {member : List Char} (h : readValue? 126 (member ++ ['\x7d']) = none) :
      load (object member) = .error .malformed := by
    rw [load, ofText?_eq_none_of_member hname h]
  let parts : NumberParts :=
    ⟨false, ['1'], none, some 400, by decide, List.forall_mem_singleton.mpr rfl, fun _ => rfl, nofun,
      nofun⟩
  have hspelled : parts.IsSpelled number :=
    ⟨_, spellsPower_exponentDigits (.inl rfl) false 400, rfl⟩
  have hends : EndsNumber ['\x7d'] := endsNumber_cons '\x7d' [] (by decide)
  refine ⟨hname, ⟨parts, hspelled⟩, hmalformed ?_, spellsPart_lists 126, hmalformed ?_⟩
  · exact readValue?_eq_none_of_number hspelled rfl (by decide +kernel) hends
  · rw [List.append_assoc]
    exact readValue?_eq_none_of_deep (by decide) _

end Variables

end ScalarExpr
