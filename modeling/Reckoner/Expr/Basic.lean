import Reckoner.Failure

/-!
# Expressions

A valuation gives numbers to some of the letters; under it an expression has a value, unless one of
its letters has none.  The left operand is calculated before the right one and neither is ever
skipped.

An expression is written down with a bracket pair around every operation, or with only the brackets
that its shape needs.  Operators associate to the left, so an operator takes a left operand of its
own rank or above as it is, but a right operand only if it ranks strictly above.
-/

namespace Reckoner

/-- The number of each letter that has one. -/
abbrev Valuation := Letter → Option Int32

namespace Valuation

def empty : Valuation :=
  fun _ => none

def insert (values : Valuation) (v : Letter) (n : Int32) : Valuation :=
  fun w => if w = v then some n else values w

/-- Sets the letters of a list from left to right.  A later setting replaces an earlier one. -/
def ofPairs (pairs : List (Letter × Int32)) : Valuation :=
  pairs.foldl (fun values pair => values.insert pair.1 pair.2) empty

@[simp] theorem insert_self
    (values : Valuation)
    (v : Letter)
    (n : Int32) :
    values.insert v n v = some n := by
  simp [insert]

theorem insert_of_ne
    (values : Valuation)
    {v w : Letter}
    (n : Int32)
    (h : w ≠ v) :
    values.insert v n w = values w := by
  simp [insert, h]

theorem ofPairs_concat
    (pairs : List (Letter × Int32))
    (v : Letter)
    (n : Int32) :
    ofPairs (pairs ++ [(v, n)]) = (ofPairs pairs).insert v n := by
  simp [ofPairs]

end Valuation

/-- An expression with 32-bit literals. -/
inductive Expr where
  | literal (n : Int32)
  | letter (v : Letter)
  | operation (op : Operator) (left right : Expr)
deriving DecidableEq

namespace Expr

section Values

def root? : Expr → Option Operator
  | literal _ | letter _ => none
  | operation op _ _ => some op

/-- Appends to `seen` the letters of the expression that are not yet in it. -/
def lettersAfter (seen : List Letter) : Expr → List Letter
  | literal _ => seen
  | letter v => if v ∈ seen then seen else seen ++ [v]
  | operation _ left right => right.lettersAfter (left.lettersAfter seen)

def letters (e : Expr) : List Letter :=
  e.lettersAfter []

/-- The value of the expression, or the first letter that has no number. -/
def evaluate (values : Valuation) : Expr → Except Failure Int32
  | literal n => .ok n
  | letter v =>
      match values v with
      | some n => .ok n
      | none => .error (.missingValue v)
  | operation op left right => do
      let a ← left.evaluate values
      let b ← right.evaluate values
      return op.apply a b

end Values

section Spelling

/-- The rank of the root operator.  A leaf ranks above all operators. -/
def rank : Expr → Nat
  | literal _ | letter _ => 2
  | operation op _ _ => op.rank

def enclose (tokens : List Token) : List Token :=
  .opening :: tokens ++ [.closing]

/-- Puts brackets around the tokens of an expression that does not have rank `k` at least. -/
def encloseBelow (k : Nat) (e : Expr) (tokens : List Token) : List Token :=
  if e.rank < k then enclose tokens else tokens

def toTokens : Expr → List Token
  | literal n => [.constant n]
  | letter v => [.letter v]
  | operation op left right =>
      encloseBelow op.rank left left.toTokens ++
        .operator op :: encloseBelow (op.rank + 1) right right.toTokens

def toText (e : Expr) : String :=
  Token.spell e.toTokens

def toBracketedTokens : Expr → List Token
  | literal n => [.constant n]
  | letter v => [.letter v]
  | operation op left right =>
      enclose (left.toBracketedTokens ++ .operator op :: right.toBracketedTokens)

def toBracketedText (e : Expr) : String :=
  Token.spell e.toBracketedTokens

end Spelling

end Expr

end Reckoner
