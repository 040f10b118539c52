import ScalarExpr.NameMap
import ScalarExpr.Value

/-!
# Variables

The values that identifiers stand for. A name that is not bound stands for itself, as a string.
-/

namespace ScalarExpr

/-- Values by name. -/
abbrev Variables := NameMap Value

/-- The value that an identifier stands for. -/
def Variables.resolve (vars : Variables) (name : String) : Value :=
  (vars.find? name).getD (.string name)

end ScalarExpr
