import ScalarExpr.Text.Hidden

/-!
# Text in a log

A log shows a text between quotes, in one line: quotes and backslashes are escaped, line breaks and
the tab have letters, and characters without a shape of their own are written by number.
-/

namespace ScalarExpr.Text

/-- A character as a log shows it. -/
def escaped (c : Char) : List Char :=
  if c.toNat = 0x00 then ['\\', '0']
  else if c.toNat = 0x09 then ['\\', 't']
  else if c.toNat = 0x0A then ['\\', 'n']
  else if c.toNat = 0x0D then ['\\', 'r']
  else if c = '"' ∨ c = '\\' then ['\\', c]
  else if isHidden c then
    ['\\', 'u', '\x7b'] ++ Nat.toDigits 16 c.toNat ++ ['\x7d']
  else [c]

/-- A text as a log shows it. -/
def quoted (text : String) : String :=
  String.ofList ('"' :: (text.toList.flatMap escaped ++ ['"']))

end ScalarExpr.Text
