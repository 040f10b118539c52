import ScalarExpr.Command.Outcome

/-!
# The program

Reads the standard input if the arguments leave the expression to it, and prints an outcome.
-/

open ScalarExpr.CommandLine

/-- What the standard input is. -/
def readInput : IO Input := do
  let stdin ← IO.getStdin
  if ← stdin.isTty then return .terminal
  try return .text (← stdin.readToEnd)
  catch error => return .unreadable (toString error)

/-- Runs the command that the arguments name. -/
def main (arguments : List String) : IO UInt32 := do
  let invocation := Invocation.ofArguments arguments
  let input ← if invocation.readsInput then readInput else pure .terminal
  let result := invocation.outcome plainly input
  IO.print result.stdout
  IO.eprint result.stderr
  return result.exitCode.toUInt32
