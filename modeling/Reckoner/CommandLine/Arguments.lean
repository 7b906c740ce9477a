import Reckoner.Expr.Basic
import Reckoner.Token.Element

/-!
# Arguments

The words of a command line are one expression, any number of assignments, and switches.  Options
may stand before or after the expression.  A word that begins with a minus sign is an option, or
several short ones in a row, unless it is a lone minus sign or follows the word `--`.

An assignment is written `NAME=VALUE`.  The first equals sign divides it.  Blanks around the name
and around the value do not count.  The name is a single letter and the value a decimal number with
an optional sign.  The name is read before the value.

The value of `--set` may be attached to it or be the next word.  An attached value is checked at
once.  A value in a word of its own is pending until the next option is recognised, the expression
begins, or the words end; an error found before that is reported in its place.  A `--set` whose
value never comes is forgiven as long as another one has a value.

Asking for help or for the version ends the reading of the words.  What is wrong with the words as a
whole is found at their end, in a fixed order.
-/

namespace Reckoner
namespace CommandLine

section Assignments

structure Assignment where
  letter : Letter
  value : Int32
deriving DecidableEq

namespace Assignment

/-- Why a text is no assignment. -/
inductive Fault where
  | undivided (text : String)
  | name (failure : Failure)
  | value (letter : Letter) (fault : Decimal.Fault)
deriving DecidableEq

def Fault.message : Fault → String
  | undivided text => "expected NAME=VALUE, found '" ++ text ++ "'"
  | name failure => failure.message
  | value letter fault => "invalid value for '" ++ letter.name ++ "': " ++ fault.message

/-- The parts before and after the first equals sign. -/
def divide : List Char → Option (List Char × List Char)
  | [] => none
  | '=' :: rest => some ([], rest)
  | c :: rest => (divide rest).map fun parts => (c :: parts.1, parts.2)

def ofText (text : String) : Except Fault Assignment := do
  let (before, after) ←
    match divide text.toList with
    | some parts => .ok parts
    | none => .error (.undivided text)
  let letter ← (Letter.ofName (String.ofList (Text.trim before))).mapError .name
  let value ← (Decimal.ofSigned (Text.trim after)).mapError (.value letter)
  return ⟨letter, value⟩

/-- The valuation that assignments make when they are carried out one after another. -/
def valuation (assignments : List Assignment) : Valuation :=
  Valuation.ofPairs (assignments.map fun a => (a.letter, a.value))

/-- The number of letters that are assigned a number. -/
def size (assignments : List Assignment) : Nat :=
  (assignments.map letter).eraseDups.length

end Assignment

end Assignments

section Options

/-- An option without a value. -/
inductive Switch where
  | diagram
  | text
  | verbose
  | quiet
deriving DecidableEq

/-- An option that asks about the program itself. -/
inductive Inquiry where
  | help
  | version
deriving DecidableEq

inductive Call where
  | switch (switch : Switch)
  | inquiry (inquiry : Inquiry)
  | assignment
deriving DecidableEq

def Switch.name : Switch → String
  | diagram => "tree"
  | text => "infix"
  | verbose => "verbose"
  | quiet => "quiet"

def Inquiry.name : Inquiry → String
  | help => "help"
  | version => "version"

def Call.name : Call → String
  | switch s => s.name
  | inquiry i => i.name
  | assignment => "set"

def Call.all : List Call :=
  [.switch .diagram, .switch .text, .switch .verbose, .switch .quiet,
    .inquiry .help, .inquiry .version, .assignment]

def Call.ofName? (name : String) : Option Call :=
  Call.all.find? fun call => call.name == name

def Call.ofChar? : Char → Option Call
  | 'v' => some (.switch .verbose)
  | 'q' => some (.switch .quiet)
  | 'h' => some (.inquiry .help)
  | 'V' => some (.inquiry .version)
  | 's' => some .assignment
  | _ => none

end Options

section Faults

/-- Why the words of a command line are refused.  The value of an assignment may be missing or
refused itself; a superfluous value is attached to an option that takes none. -/
inductive UsageFault where
  | missingExpression
  | unexpected (word : String)
  | missingValue
  | invalidValue (text : String) (fault : Assignment.Fault)
  | superfluousValue (text : String) (name : String)
  | repeated (s : Switch)
  | conflict (first second : Switch)
deriving DecidableEq

def assignmentUsage : String :=
  "'--set <NAME=VALUE>'"

def UsageFault.message : UsageFault → String
  | missingExpression => "The following required arguments were not provided:"
  | unexpected word =>
      "Found argument '" ++ word ++ "' which wasn't expected, or isn't valid in this context"
  | missingValue =>
      "The argument " ++ assignmentUsage ++ " requires a value but none was supplied"
  | invalidValue text fault =>
      "Invalid value " ++ Text.quote text ++ " for " ++ assignmentUsage ++ ": " ++ fault.message
  | superfluousValue text name =>
      "The value '" ++ text ++ "' was provided to '--" ++ name ++
        "' but it wasn't expecting any more values"
  | repeated s =>
      "The argument '--" ++ s.name ++
        "' was provided more than once, but cannot be used multiple times"
  | conflict first second =>
      "The argument '--" ++ first.name ++ "' cannot be used with '--" ++ second.name ++ "'"

/-- What ends the reading of the words without arguments. -/
inductive Ending where
  | refused (fault : UsageFault)
  | answered (inquiry : Inquiry)
deriving DecidableEq

end Faults

/-- What the words of a command line ask the program to do.  The verbosity is negative if less than
the errors is to be logged. -/
structure Arguments where
  expression : String
  assignments : List Assignment
  showDiagram : Bool
  showText : Bool
  verbosity : Int
deriving DecidableEq

section Scanning

/-- The state of the last `--set` whose value was not attached.  A value that is given has not been
checked yet. -/
inductive Pending where
  | settled
  | awaiting
  | given (text : String)
deriving DecidableEq

/-- An option that has taken effect. -/
inductive Mention where
  | assignment
  | switch (s : Switch)
deriving DecidableEq

structure Scan where
  expression : Option String
  assignments : List Assignment
  mentions : List Mention
  pending : Pending
  optionsEnded : Bool
deriving DecidableEq

namespace Scan

def start : Scan :=
  ⟨none, [], [], .settled, false⟩

def mention (scan : Scan) (m : Mention) : Scan :=
  { scan with mentions := scan.mentions ++ [m] }

def assign (scan : Scan) (text : String) : Except Ending Scan :=
  match Assignment.ofText text with
  | .ok a =>
      .ok { scan.mention .assignment with
        assignments := scan.assignments ++ [a], pending := .settled }
  | .error fault => .error (.refused (.invalidValue text fault))

/-- Deals with the pending assignment, if there is one. -/
def settle (scan : Scan) : Except Ending Scan :=
  match scan.pending with
  | .settled => .ok scan
  | .awaiting => .ok { scan.mention .assignment with pending := .settled }
  | .given text => scan.assign text

def call (scan : Scan) (c : Call) : Except Ending Scan := do
  let scan ← scan.settle
  match c with
  | .switch s => return scan.mention (.switch s)
  | .inquiry i => throw (.answered i)
  | .assignment => return { scan with pending := .awaiting }

/-- Reads a long option, from its name on. -/
def long (scan : Scan) (body : List Char) : Except Ending Scan :=
  let name := String.ofList (body.takeWhile (· ≠ '='))
  match Call.ofName? name, body.dropWhile (· ≠ '=') with
  | none, _ => .error (.refused (.unexpected ("--" ++ name)))
  | some c, [] => scan.call c
  | some .assignment, _ :: text => do
      let scan ← scan.settle
      scan.assign (String.ofList text)
  | some c, _ :: text => .error (.refused (.superfluousValue (String.ofList text) c.name))

/-- Reads short options that are written in a row.  What follows an assignment is its value,
with or without an equals sign in between. -/
def short (scan : Scan) : List Char → Except Ending Scan
  | [] => .ok scan
  | c :: rest =>
      match Call.ofChar? c, rest with
      | none, _ => .error (.refused (.unexpected ("-" ++ String.singleton c)))
      | some .assignment, [] => scan.call .assignment
      | some .assignment, '=' :: text | some .assignment, text => do
          let scan ← scan.settle
          scan.assign (String.ofList text)
      | some other, rest => do
          let scan ← scan.call other
          scan.short rest

/-- Reads a word that is no option: the value that an assignment waits for, or else the
expression. -/
def plain (scan : Scan) (word : String) : Except Ending Scan :=
  if scan.pending = .awaiting ∧ scan.optionsEnded = false then
    .ok { scan with pending := .given word }
  else
    match scan.expression with
    | none => do
        let scan ← scan.settle
        return { scan with expression := some word }
    | some _ => .error (.refused (.unexpected word))

def word (scan : Scan) (word : String) : Except Ending Scan :=
  if scan.optionsEnded then scan.plain word
  else
    match word.toList with
    | ['-', '-'] => .ok { scan with optionsEnded := true }
    | '-' :: '-' :: body => scan.long body
    | '-' :: c :: rest => scan.short (c :: rest)
    | _ => scan.plain word

/-- What is wrong with an option that took effect, seen from the end. -/
def objection? (scan : Scan) : Mention → Option UsageFault
  | .assignment => if scan.assignments.isEmpty then some .missingValue else none
  | .switch s =>
      if (s = .diagram ∨ s = .text) ∧ 1 < scan.mentions.count (.switch s) then
        some (.repeated s)
      else none

/-- Two switches that exclude each other, the one given first in front. -/
def conflict? (scan : Scan) : Option UsageFault :=
  match scan.mentions.filter (fun m => m = .switch .verbose ∨ m = .switch .quiet) with
  | [] => none
  | .switch .verbose :: others =>
      if .switch .quiet ∈ others then some (.conflict .verbose .quiet) else none
  | _ :: others =>
      if .switch .verbose ∈ others then some (.conflict .quiet .verbose) else none

/-- How many times more is to be logged, less how many times less. -/
def verbosity (scan : Scan) : Int :=
  (scan.mentions.count (.switch .verbose) : Int) - scan.mentions.count (.switch .quiet)

/-- Ends the scan.  The words are objected to on the first ground that applies: a last
assignment waits for the only value, switches exclude each other, there is no expression, or
an option that took effect is at fault. -/
def finish (scan : Scan) : Except Ending Arguments := do
  let last := scan.pending
  let scan ← scan.settle
  if last = .awaiting ∧ scan.assignments.isEmpty then
    throw (.refused .missingValue)
  if let some fault := scan.conflict? then
    throw (.refused fault)
  match scan.expression with
  | none => throw (.refused .missingExpression)
  | some expression =>
      match scan.mentions.findSome? scan.objection? with
      | some fault => throw (.refused fault)
      | none =>
          return {
            expression
            assignments := scan.assignments
            showDiagram := decide (.switch .diagram ∈ scan.mentions)
            showText := decide (.switch .text ∈ scan.mentions)
            verbosity := scan.verbosity }

end Scan

def Arguments.ofWords (words : List String) : Except Ending Arguments := do
  let scan ← words.foldlM Scan.word .start
  scan.finish

end Scanning

end CommandLine
end Reckoner
