import Reckoner.Expr.Basic

/-!
# Nesting of brackets

How many brackets of a token list are open at once.  The limit of the grammar is a condition
on all beginnings of a list: none of them leaves more than `depthLimit` brackets open.  Proofs
use the nesting instead, which is computed from the end of the list: an opening bracket raises
the nesting of what follows by one, and a closing bracket lowers it.

A list is level if it closes every bracket that it opens and no other.  Only level lists add
up: the nesting of two level lists in sequence is the greater of the two.

**Results.**
* `nesting_le_iff`: the nesting is the greatest number of brackets that any beginning of the
  list leaves open.
* `shallow_iff`: a list respects the limit if and only if its nesting does.
-/

namespace Reckoner
namespace Token

section Definitions

/-- The number of brackets that are still open after the tokens. -/
def unclosed (tokens : List Token) : Nat :=
  tokens.count .opening - tokens.count .closing

/-- No beginning of the list leaves more brackets open than the grammar admits. -/
def Shallow (tokens : List Token) : Prop :=
  ∀ start, start <+: tokens → unclosed start ≤ Grammar.depthLimit

/-- The bracket at the index is the first one that opens a level beyond the limit. -/
def TooDeepAt (tokens : List Token) (n : Nat) : Prop :=
  tokens[n]? = some .opening ∧ Shallow (tokens.take n) ∧ ¬ Shallow (tokens.take (n + 1))

/-- What a token does to the nesting of the tokens after it. -/
def deepen : Token → Nat → Nat
  | opening, k => k + 1
  | closing, k => k - 1
  | constant _, k | letter _, k | operator _, k => k

/-- The nesting of tokens in front of a list that has the nesting `k`. -/
def nestingBefore (k : Nat) (tokens : List Token) : Nat :=
  tokens.foldr deepen k

/-- The deepest nesting of brackets in a list. -/
def nesting (tokens : List Token) : Nat :=
  nestingBefore 0 tokens

/-- Every bracket that the list opens is closed in it, and no other is. -/
def Level (tokens : List Token) : Prop :=
  ∀ k, nestingBefore k tokens = max (nesting tokens) k

end Definitions

section Computing

@[simp] theorem nestingBefore_nil (k : Nat) :
    nestingBefore k [] = k := by
  rfl

@[simp] theorem nestingBefore_cons
    (k : Nat)
    (token : Token)
    (tokens : List Token) :
    nestingBefore k (token :: tokens) =
      token.deepen (nestingBefore k tokens) := by
  rfl

@[simp] theorem nestingBefore_append
    (k : Nat)
    (u v : List Token) :
    nestingBefore k (u ++ v) =
      nestingBefore (nestingBefore k v) u := by
  simp [nestingBefore, List.foldr_append]

@[simp] theorem nesting_nil :
    nesting [] = 0 := by
  rfl

@[simp] theorem nesting_cons
    (token : Token)
    (tokens : List Token) :
    nesting (token :: tokens) = token.deepen (nesting tokens) := by
  rfl

theorem nesting_append (u v : List Token) :
    nesting (u ++ v) = nestingBefore (nesting v) u := by
  simp [nesting]

end Computing

section Level

theorem level_append
    {u v : List Token}
    (hu : Level u)
    (hv : Level v) :
    Level (u ++ v) := by
  intro k
  rw [nestingBefore_append, hv k, hu, nesting_append, hu]
  omega

theorem level_constant (n : Int32) :
    Level [.constant n] := by
  intro k
  simp [deepen]

theorem level_letter (v : Letter) :
    Level [.letter v] := by
  intro k
  simp [deepen]

theorem level_operator_cons
    (op : Operator)
    {tokens : List Token}
    (h : Level tokens) :
    Level (.operator op :: tokens) := by
  intro k
  simpa [deepen] using h k

theorem nesting_enclose
    {tokens : List Token}
    (h : Level tokens) :
    nesting (Expr.enclose tokens) = nesting tokens + 1 := by
  simp [Expr.enclose, nesting_append, h _, deepen]

theorem level_enclose
    {tokens : List Token}
    (h : Level tokens) :
    Level (Expr.enclose tokens) := by
  intro k
  rw [nesting_enclose h]
  simp only [Expr.enclose, List.cons_append, nestingBefore_cons, nestingBefore_append,
    nestingBefore_nil, h _, deepen]
  omega

/-- Level lists with an operator between them are nested as deep as the deeper of them. -/
theorem nesting_operation
    {u : List Token}
    (hu : Level u)
    (op : Operator)
    (v : List Token) :
    nesting (u ++ .operator op :: v) = max (nesting u) (nesting v) := by
  rw [nesting_append, nesting_cons, hu]
  rfl

end Level

section Limit

theorem forall_prefix_cons_iff
    (token : Token)
    (rest : List Token)
    (k : Nat) :
    (∀ start, start <+: token :: rest → unclosed start ≤ k)
      ↔
    ∀ start, start <+: rest → unclosed (token :: start) ≤ k := by
  constructor
  · intro h start hstart
    exact h _ (List.cons_prefix_cons.2 ⟨rfl, hstart⟩)
  · intro h start hstart
    rcases List.prefix_cons_iff.1 hstart with rfl | ⟨tail, rfl, htail⟩
    · simp [unclosed]
    · exact h tail htail

theorem unclosed_opening_cons_le_iff
    (tokens : List Token)
    (k : Nat) :
    unclosed (opening :: tokens) ≤ k + 1 ↔ unclosed tokens ≤ k := by
  simp only [unclosed, List.count_cons_self]
  rw [List.count_cons_of_ne (by decide)]
  omega

theorem unclosed_closing_cons_le_iff
    (tokens : List Token)
    (k : Nat) :
    unclosed (closing :: tokens) ≤ k ↔ unclosed tokens ≤ k + 1 := by
  simp only [unclosed, List.count_cons_self]
  rw [List.count_cons_of_ne (by decide)]
  omega

/-- The nesting is the greatest number of brackets that any beginning leaves open. -/
theorem nesting_le_iff
    (tokens : List Token)
    (k : Nat) :
    nesting tokens ≤ k
      ↔
    ∀ start, start <+: tokens → unclosed start ≤ k := by
  induction tokens generalizing k with
  | nil =>
      simp [unclosed]
  | cons token rest ih =>
      rw [forall_prefix_cons_iff, nesting_cons]
      cases token with
      | constant _ | letter _ | operator _ =>
          simpa [unclosed, deepen] using ih k
      | opening =>
          cases k with
          | zero =>
              -- The bracket alone already leaves one open.
              have hopen : unclosed [opening] = 1 := by rfl
              constructor
              · intro h
                simp [deepen] at h
              · intro h
                have := h [] List.nil_prefix
                omega
          | succ k =>
              simp only [unclosed_opening_cons_le_iff, ← ih k, deepen]
              omega
      | closing =>
          simp only [unclosed_closing_cons_le_iff, ← ih (k + 1), deepen]
          omega

theorem shallow_iff (tokens : List Token) :
    Shallow tokens ↔ nesting tokens ≤ Grammar.depthLimit :=
  (nesting_le_iff tokens Grammar.depthLimit).symm

instance (tokens : List Token) : Decidable (Shallow tokens) :=
  decidable_of_iff _ (shallow_iff tokens).symm

end Limit

end Token
end Reckoner
