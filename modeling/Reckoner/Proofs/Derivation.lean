import Reckoner.Proofs.Nesting

/-!
# The grammar

The token lists that are expressions, and the expression that each of them stands for.  There
are three kinds of phrases: an expression is a chain of terms with sum and difference signs
between them, a term is a chain of factors with product signs between them, and a factor is a
constant, a letter or an expression in brackets.  The chains are left-recursive, so all
operators associate to the left.

The grammar alone does not limit the nesting of brackets.

**Results.**
* `level_of_derives`: a phrase closes every bracket that it opens.
* `bare_eq_inorder`: apart from its brackets, a phrase is its expression written in order.
-/

namespace Reckoner

namespace Operator

/-- A sum or a difference sign. -/
def IsAdditive (op : Operator) : Prop :=
  op = .add ∨ op = .subtract

end Operator

namespace Token

/-- Whether a token is a bracket. -/
def isBracket : Token → Bool
  | opening | closing => true
  | constant _ | letter _ | operator _ => false

/-- The tokens that are left when the brackets are taken out. -/
def bare (tokens : List Token) : List Token :=
  tokens.filter fun token => !token.isBracket

@[simp] theorem bare_append (u v : List Token) :
    bare (u ++ v) = bare u ++ bare v :=
  List.filter_append u v

@[simp] theorem bare_operator_cons
    (op : Operator)
    (tokens : List Token) :
    bare (.operator op :: tokens) = .operator op :: bare tokens := by
  rfl

end Token

namespace Expr

/-- The operands and operators of an expression in order, without any bracket. -/
def inorder : Expr → List Token
  | literal n => [.constant n]
  | letter v => [.letter v]
  | operation op left right => left.inorder ++ .operator op :: right.inorder

end Expr

namespace Grammar

/-- The kinds of phrases. -/
inductive Phrase where
  | expression
  | term
  | factor
deriving DecidableEq

/-- A list of tokens is a phrase of a kind and stands for an expression. -/
inductive Derives : Phrase → List Token → Expr → Prop
  | ofTerm
      {w : List Token} {e : Expr}
      (h : Derives .term w e) :
      Derives .expression w e
  | additive
      {op : Operator} {u v : List Token} {a b : Expr}
      (hop : op.IsAdditive)
      (left : Derives .expression u a)
      (right : Derives .term v b) :
      Derives .expression (u ++ .operator op :: v) (.operation op a b)
  | ofFactor
      {w : List Token} {e : Expr}
      (h : Derives .factor w e) :
      Derives .term w e
  | multiply
      {u v : List Token} {a b : Expr}
      (left : Derives .term u a)
      (right : Derives .factor v b) :
      Derives .term (u ++ .operator .multiply :: v) (.operation .multiply a b)
  | constant (n : Int32) :
      Derives .factor [.constant n] (.literal n)
  | letter (v : Letter) :
      Derives .factor [.letter v] (.letter v)
  | bracket
      {w : List Token} {e : Expr}
      (h : Derives .expression w e) :
      Derives .factor (.opening :: w ++ [.closing]) e

theorem level_of_derives
    {phrase : Phrase} {w : List Token} {e : Expr}
    (h : Derives phrase w e) :
    Token.Level w := by
  induction h with
  | ofTerm _ ih | ofFactor _ ih =>
      exact ih
  | additive _ _ _ ihL ihR | multiply _ _ ihL ihR =>
      exact Token.level_append ihL (Token.level_operator_cons _ ihR)
  | constant n =>
      exact Token.level_constant n
  | letter v =>
      exact Token.level_letter v
  | bracket _ ih =>
      exact Token.level_enclose ih

/-- Apart from its brackets, a phrase is its expression written in order. -/
theorem bare_eq_inorder
    {phrase : Phrase} {w : List Token} {e : Expr}
    (h : Derives phrase w e) :
    Token.bare w = e.inorder := by
  induction h with
  | ofTerm _ ih | ofFactor _ ih =>
      exact ih
  | additive _ _ _ ihL ihR | multiply _ _ ihL ihR =>
      simp [Expr.inorder, ihL, ihR]
  | constant _ | letter _ =>
      rfl
  | @bracket w e _ ih =>
      calc Token.bare (.opening :: w ++ [.closing])
          = Token.bare w ++ [] := by rw [Token.bare_append]; rfl
        _ = e.inorder := by rw [List.append_nil, ih]

end Grammar
end Reckoner
