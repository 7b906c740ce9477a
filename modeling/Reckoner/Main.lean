import Reckoner.CommandLine.Program

/-!
# Command line

Runs the program on the words of the command line and writes what it has to say.  The lines of the
log carry no time.  The report on refused words is a single line, which is ended here.
-/

/-- The entry point of the program. -/
def main (words : List String) : IO UInt32 := do
  let outcome := Reckoner.CommandLine.run words
  for record in outcome.log do
    (← IO.getStderr).putStrLn record.line
  (← IO.getStdout).putStr outcome.stdout
  (← IO.getStderr).putStr outcome.stderr
  if outcome.code = 2 then
    (← IO.getStderr).putStr "\n"
  return UInt32.ofNat outcome.code
