import CommentMarkup.Cli

/-!
# Entry point
-/

open CommentMarkup

def main : IO UInt32 := do
  let input ← (← IO.getStdin).readBinToEnd
  let outcome := Cli.run input
  (← IO.getStdout).putStr (String.ofList outcome.stdout)
  (← IO.getStderr).putStr (String.ofList outcome.stderr)
  return outcome.code.toUInt32
