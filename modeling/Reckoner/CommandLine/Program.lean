import Reckoner.Calculator
import Reckoner.CommandLine.Arguments

/-!
# The program

A run of the program reads its arguments, calculates the expression, and ends with an exit code.
Code `0` says that all went well, `1` that the expression could not be read or calculated, and `2`
that the arguments were refused.

What was asked to be shown is written before the calculation begins, so it is there even if the
calculation fails.  A failure is reported on standard error.  The lines of the log stand there too,
as far as the verbosity lets them, but they are no part of the report.
-/

namespace Reckoner
namespace CommandLine

/-- How a run of the program ended.  Of what is reported of refused words, it holds the first
line. -/
structure Outcome where
  code : Nat
  stdout : String
  report : String
  log : List Record
deriving DecidableEq

/-- What is written to standard error apart from the log. -/
def Outcome.stderr (outcome : Outcome) : String :=
  outcome.report

section Reports

/-- Sets every line after the first one in by four blanks. -/
def continued (text : String) : String :=
  String.ofList (text.toList.flatMap fun c =>
    if c = '\n' then ['\n', ' ', ' ', ' ', ' '] else [c])

def firstLine (text : String) : String :=
  String.ofList (text.toList.takeWhile (· ≠ '\n'))

/-- Says what could not be done with an expression, and why. -/
def report (task expression : String) (failure : Failure) : String :=
  "Error: could not " ++ task ++ " expression '" ++ expression ++ "'\n\nCaused by:\n    " ++
    continued failure.message ++ "\n"

def Inquiry.answer : Inquiry → String
  | help =>
      "expression-interpreter-cli 0.1.0\n" ++
      "Martin Jonsson <martinjonsson01@gmail.com>\n" ++
      "Calculates an integer expression such as \"3 * (a + 2)\"\n" ++
      "\n" ++
      "USAGE:\n" ++
      "    expression-interpreter-cli [OPTIONS] <EXPRESSION>\n" ++
      "\n" ++
      "ARGS:\n" ++
      "    <EXPRESSION>    The expression to calculate\n" ++
      "\n" ++
      "OPTIONS:\n" ++
      "    -h, --help                Print help information\n" ++
      "        --infix               Prints the expression with normalised spacing and brackets " ++
        "before the\n" ++
      "                              result\n" ++
      "    -q, --quiet               Less output per occurrence\n" ++
      "    -s, --set <NAME=VALUE>    Assigns a value to a variable, e.g. `-s a=2`. " ++
        "Can be repeated\n" ++
      "        --tree                Prints the parsed expression tree before the result\n" ++
      "    -v, --verbose             More output per occurrence\n" ++
      "    -V, --version             Print version information\n"
  | version => "expression-interpreter-cli 0.1.0\n"

end Reports

section Running

/-- What is shown of an expression on request. -/
def Arguments.shown (arguments : Arguments) (tree : Expr) : String :=
  (if arguments.showDiagram then tree.diagram ++ "\n" else "") ++
    (if arguments.showText then tree.toText ++ "\n" else "")

/-- Calculates an expression that has been read.  It is noted how many letters have a number, and at
the end the value. -/
def Arguments.calculate (arguments : Arguments) (calculator : Calculator) : Logged Int32 := do
  Logged.note (.calculating (Assignment.size arguments.assignments))
  let n ← Logged.lift (calculator.valueUnder (Assignment.valuation arguments.assignments))
  Logged.note (.calculated arguments.expression n)
  return n

def Arguments.run (arguments : Arguments) : Outcome :=
  let reading := Calculator.readText (some arguments.expression)
  match reading.outcome with
  | .error failure =>
      { code := 1
        stdout := ""
        report := report "register" arguments.expression failure
        log := Record.upTo arguments.verbosity reading.records }
  | .ok calculator =>
      let shown := arguments.shown calculator.tree
      let calculation := arguments.calculate calculator
      let log := Record.upTo arguments.verbosity (reading.records ++ calculation.records)
      match calculation.outcome with
      | .error failure => ⟨1, shown, report "calculate" arguments.expression failure, log⟩
      | .ok n => ⟨0, shown ++ String.ofList (Decimal.ofInt32 n) ++ "\n", "", log⟩

def run (words : List String) : Outcome :=
  match Arguments.ofWords words with
  | .ok arguments => arguments.run
  | .error (.answered inquiry) => ⟨0, inquiry.answer, "", []⟩
  | .error (.refused fault) => ⟨2, "", firstLine ("error: " ++ fault.message), []⟩

end Running

end CommandLine
end Reckoner
