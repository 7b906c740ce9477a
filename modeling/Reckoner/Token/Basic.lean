import Reckoner.Decimal

/-!
# Letters, operators and tokens

The parts that expressions are made of.  A variable is named by a single letter from `a` to `z`,
and the type `Letter` carries the proof that its character is one of those, so no other name can
occur inside a token, an expression or a valuation.  There are three operators; they compute on
32-bit signed integers, and a product binds more tightly than a sum or a difference.

A list of tokens is written as a text with a space on each side of every operator and no other
space.
-/

namespace Reckoner

structure Letter where
  char : Char
  isLower : char.isLower = true
deriving DecidableEq

namespace Letter

instance : Ord Letter where
  compare a b := compare a.char b.char

@[ext]
theorem ext
    {a b : Letter}
    (h : a.char = b.char) :
    a = b := by
  cases a
  cases b
  cases h
  rfl

def name (a : Letter) : String :=
  String.singleton a.char

/-- The letter of a lower-case character, and of no other character. -/
def ofChar? (c : Char) : Option Letter :=
  if h : c.isLower = true then some ⟨c, h⟩ else none

@[simp] theorem ofChar?_char (a : Letter) : ofChar? a.char = some a := by
  simp [ofChar?, a.isLower]

theorem ofChar?_eq_some_iff
    {c : Char} {a : Letter} :
    ofChar? c = some a ↔ a.char = c := by
  constructor
  · intro h
    unfold ofChar? at h
    split at h
    · cases h
      rfl
    · cases h
  · rintro rfl
    exact ofChar?_char a

end Letter

inductive Operator where
  | add
  | subtract
  | multiply
deriving DecidableEq

namespace Operator

def symbol : Operator → Char
  | add => '+'
  | subtract => '-'
  | multiply => '*'

def rank : Operator → Nat
  | add | subtract => 0
  | multiply => 1

/-- A result out of range wraps around. -/
def apply : Operator → Int32 → Int32 → Int32
  | add, a, b => a + b
  | subtract, a, b => a - b
  | multiply, a, b => a * b

theorem rank_le_one (op : Operator) : op.rank ≤ 1 := by
  cases op <;> decide

theorem symbol_inj {p q : Operator} : p.symbol = q.symbol ↔ p = q := by
  cases p <;> cases q <;> decide

end Operator

inductive Token where
  | constant (n : Int32)
  | letter (v : Letter)
  | operator (op : Operator)
  | opening
  | closing
deriving DecidableEq

namespace Token

def chars : Token → List Char
  | constant n => Decimal.ofInt32 n
  | letter v => [v.char]
  | operator op => [op.symbol]
  | opening => ['(']
  | closing => [')']

/-- The characters of a token with the spaces that set an operator apart. -/
def spaced : Token → List Char
  | operator op => [' ', op.symbol, ' ']
  | token => token.chars

def spell (tokens : List Token) : String :=
  String.ofList (tokens.flatMap spaced)

@[simp] theorem toList_spell (tokens : List Token) :
    (spell tokens).toList = tokens.flatMap spaced :=
  String.toList_ofList

end Token

end Reckoner
