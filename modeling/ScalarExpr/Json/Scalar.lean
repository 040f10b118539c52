import ScalarExpr.Json.Reader
import ScalarExpr.Variables

/-!
# Values and variables in JSON

Scalars have a counterpart in JSON in both directions, except that NaN and the infinities are written
as null. Variables are read from an object whose members are scalars: all of them, or none if a
member is a list or an object.
-/

namespace ScalarExpr

/-- The value that a scalar of JSON stands for. -/
def Json.toValue? : Json → Option Value
  | .null => some .null
  | .boolean value => some (.boolean value)
  | .number value => some (.number value)
  | .string value => some (.string value)
  | .array _ => none
  | .object _ => none

/-- The JSON text of a value. -/
def Value.jsonText : Value → String
  | .number value => value.jsonText
  | .string value => Json.quote value
  | value => value.text

/-- Why a text holds no variables. -/
inductive LoadError
  | malformed
  | notAnObject (found : Json.Kind)
  | unsupported (name : String) (found : Json.Kind)
  deriving DecidableEq, Repr

/-- The text of the error. Of a text that is no JSON it gives the reason, as a reader of JSON has
it. -/
def LoadError.message (error : LoadError) (reason : String := "") : String :=
  match error with
  | malformed => "Invalid JSON: " ++ reason
  | notAnObject found => "Variables must be a JSON object, got " ++ found.name
  | unsupported name found =>
    "Variable '" ++ name ++ "' holds an unsupported " ++ found.name ++ "; only scalars are allowed"

namespace Variables

/-- The bindings of scalars, in the order of the members; the first member that is no scalar is an
error. -/
def ofMembers : List (String × Json) → Except LoadError (List (String × Value))
  | [] => .ok []
  | (name, json) :: rest =>
    match json.toValue? with
    | none => .error (.unsupported name json.kind)
    | some value => (ofMembers rest).map ((name, value) :: ·)

/-- The variables of a JSON value. Of members with one name the last counts, and the error of the
least name comes first. -/
def ofJson : Json → Except LoadError Variables
  | .object members => (ofMembers (NameMap.ofList members).bindings).map NameMap.ofList
  | json => .error (.notAnObject json.kind)

/-- The variables of a JSON text. -/
def load (text : String) : Except LoadError Variables :=
  match Json.ofText? text with
  | none => .error .malformed
  | some json => ofJson json

end Variables

end ScalarExpr
