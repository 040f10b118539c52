import ScalarExpr.Text.Ranges

/-!
# Blanks

The Unicode property White_Space, version 17.0. Blanks stand between tokens and carry no meaning;
line breaks are blanks like any other.
-/

namespace ScalarExpr.Text

/-- The code points with the property White_Space. -/
def blank : Ranges :=
  [(0x9, 0xD), (0x20, 0x20), (0x85, 0x85), (0xA0, 0xA0), (0x1680, 0x1680), (0x2000, 0x200A),
   (0x2028, 0x2029), (0x202F, 0x202F), (0x205F, 0x205F), (0x3000, 0x3000)]

/-- Whether a character has the property White_Space. -/
def isBlank (c : Char) : Bool := blank.contains c.toNat

/-- The space, the tab and the line breaks of ASCII are blanks. -/
theorem isBlank_of_isWhitespace {c : Char} (h : c.isWhitespace = true) : isBlank c = true := by
  simp only [Char.isWhitespace, Bool.or_eq_true, decide_eq_true_eq] at h
  rcases h with ((rfl | rfl) | rfl) | rfl <;> decide

end ScalarExpr.Text
