import Reckoner.Token.Basic

/-!
# Failures

Everything that can go wrong between a text and its value, with the data that the report needs.
All stages share the one type `Failure`.  The grammar's own faults are the type `Grammar.Fault`; a
failure of the grammar adds the index of the token at which the fault was found.
-/

namespace Reckoner

namespace Grammar

/-- The deepest nesting of brackets that the grammar admits. -/
def depthLimit : Nat := 256

/-- What is wrong with the order of the tokens.  An element is missing where a group or an expression
is empty, or ends after a sum or difference sign. -/
inductive Fault where
  | missingOperator
  | missingOperand
  | leadingOperator
  | tooDeep
  | unmatchedClosing
  | missingElement
  | missingFactor
  | missingClosing
deriving DecidableEq

def Fault.message : Fault → String
  | missingOperator => "Missing operator, found scalar after scalar"
  | missingOperand => "Missing scalar, found operator after operator"
  | leadingOperator => "First element of expression cannot be an operator"
  | tooDeep =>
      "Brackets nested deeper than " ++ String.ofList (Decimal.ofNat depthLimit) ++ " levels"
  | unmatchedClosing => "Unexpected closing bracket"
  | missingElement => "Missing element in expression"
  | missingFactor => "Missing scalar at the end of the expression"
  | missingClosing => "Missing closing bracket"

end Grammar

/-- Why a text has no tokens, tokens no expression, or an expression no value.  The last four causes
are promises that one stage has broken to the next one. -/
inductive Failure where
  | absent
  | empty
  | foreign (found : List Char) (text : String)
  | invalidName (name : String)
  | outOfRange (element : String)
  | unknownElement (element : String)
  | grammar (fault : Grammar.Fault) (position : Nat)
  | missingValue (letter : Letter)
  | unexpectedOperator (element : String)
  | unexpectedOperand (token : String) (position : Nat)
  | noOperand (position : Nat)
  | noOperator (position : Nat)
deriving DecidableEq

namespace Failure

inductive Kind where
  | input
  | grammar
  | internal
deriving DecidableEq

def kind : Failure → Kind
  | absent | empty | foreign .. | invalidName _ | outOfRange _ | unknownElement _
  | missingValue _ => .input
  | grammar .. => .grammar
  | unexpectedOperator _ | unexpectedOperand .. | noOperand _ | noOperator _ => .internal

def alphabetReminder : String :=
  "Allowed characters are: a-z, 0-9, + - *, ( ) and spaces"

def quoted (found : List Char) : String :=
  ", ".intercalate (found.map fun c => "'" ++ String.singleton c ++ "'")

def message : Failure → String
  | absent => "Invalid input: The expression cannot be absent."
  | empty => "Invalid input: The expression cannot be empty. " ++ alphabetReminder
  | foreign found text =>
      "Invalid input: Invalid characters " ++ quoted found ++ " in expression '" ++ text ++
        "'. " ++ alphabetReminder
  | invalidName name => "Invalid input: Invalid variable name: '" ++ name ++ "'"
  | outOfRange element => "Invalid input: Constant '" ++ element ++ "' is out of range"
  | unknownElement element => "Invalid input: Unknown element '" ++ element ++ "'"
  | grammar fault position =>
      "Syntax error: " ++ fault.message ++ " at index " ++
        String.ofList (Decimal.ofNat position)
  | missingValue letter =>
      "Invalid input: no value found for variable '" ++ String.singleton letter.char ++ "'"
  | unexpectedOperator element => "Internal error: Unexpected operator '" ++ element ++ "'"
  | unexpectedOperand token position =>
      "Internal error: '" ++ token ++ "' at index " ++ String.ofList (Decimal.ofNat position) ++
        " is not a scalar"
  | noOperand position =>
      "Internal error: No operand before operator at index " ++
        String.ofList (Decimal.ofNat position)
  | noOperator position =>
      "Internal error: Missing operator at index " ++ String.ofList (Decimal.ofNat position)

end Failure

end Reckoner
