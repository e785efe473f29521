import PocketCalculator.CommandLine

/-!
# The program
-/

/-- Runs the program: prints the outcome of its arguments, and how to call it if they make no
sense. -/
def main (args : List String) : IO UInt32 := do
  let outcome := PocketCalculator.CommandLine.run (args.map String.toList)
  IO.print (String.ofList outcome.output)
  if outcome.exitCode = 2 then
    IO.eprintln (String.ofList PocketCalculator.CommandLine.usageText)
  return UInt32.ofNat outcome.exitCode
