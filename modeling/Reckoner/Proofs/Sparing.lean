import Mathlib.Order.MinMax
import Reckoner.Proofs.Legible
import Reckoner.Proofs.RoundTrip

/-!
# The sparing tokens of an expression

An expression can be written with more brackets than it needs.  Its sparing tokens are compared
here with any other phrase that stands for it.  They are nested no deeper, since a pair of
brackets that they contain stands in every phrase of the expression.  They have the same
constants, and a phrase never lets two constants touch.

**Results.**
* `nesting_toTokens_le`: no phrase of an expression is nested less deeply than its sparing
  tokens.
* `legible_toTokens`: the sparing tokens are legible if some phrase has no negative constant.
* `ofTokens_toTokens_of_ok`: an expression that was read is read back from its sparing tokens.
-/

namespace Reckoner

open Grammar

namespace Expr

section Brackets

variable {e : Expr} {tokens : List Token}

theorem encloseBelow_of_le
    {k : Nat}
    (h : k ≤ e.rank) :
    encloseBelow k e tokens = tokens := by
  unfold encloseBelow
  rw [if_neg (by omega)]

theorem nesting_le_encloseBelow
    (hlevel : Token.Level tokens)
    (k : Nat) :
    Token.nesting tokens ≤ Token.nesting (encloseBelow k e tokens) := by
  unfold encloseBelow
  split
  · rw [Token.nesting_enclose hlevel]
    omega
  · exact Nat.le_refl _

theorem nesting_encloseBelow_le
    (hlevel : Token.Level tokens)
    (k : Nat) :
    Token.nesting (encloseBelow k e tokens) ≤ Token.nesting tokens + 1 := by
  unfold encloseBelow
  split
  · rw [Token.nesting_enclose hlevel]
  · omega

/-- Where a lower rank is enough, fewer brackets are needed. -/
theorem nesting_encloseBelow_mono
    (hlevel : Token.Level tokens)
    {k l : Nat}
    (hkl : k ≤ l) :
    Token.nesting (encloseBelow k e tokens) ≤ Token.nesting (encloseBelow l e tokens) := by
  by_cases hrank : e.rank < k
  · have hl : encloseBelow l e tokens = encloseBelow k e tokens := by
      unfold encloseBelow
      rw [if_pos hrank, if_pos (by omega)]
    rw [hl]
  · rw [encloseBelow_of_le (by omega)]
    exact nesting_le_encloseBelow hlevel l

end Brackets

theorem level_toTokens (e : Expr) : Token.Level e.toTokens :=
  level_of_derives (derives_toTokens e)

/-- An operation is nested as deep as the deeper of its operands. -/
theorem nesting_toTokens_operation
    (op : Operator)
    (left right : Expr) :
    Token.nesting (operation op left right).toTokens =
      max (Token.nesting (encloseBelow op.rank left left.toTokens))
        (Token.nesting (encloseBelow (op.rank + 1) right right.toTokens)) := by
  have hlevel : Token.Level (encloseBelow op.rank left left.toTokens) :=
    level_of_derives ((derives_toTokens left).encloseBelow op.rank)
  rw [toTokens, Token.nesting_operation hlevel]

theorem toTokens_ne_nil (e : Expr) : e.toTokens ≠ [] := by
  cases e with
  | literal _ | letter _ =>
      simp [toTokens]
  | operation op left right =>
      simp [toTokens]

end Expr

namespace Grammar

variable {phrase : Phrase} {w : List Token} {e : Expr}

/-- The least rank of the expressions of a phrase. -/
def Phrase.rank : Phrase → Nat
  | .expression => 0
  | .term => 1
  | .factor => 2

/-- In the place of a phrase, the sparing tokens are nested no deeper than the phrase. -/
theorem nesting_encloseBelow_toTokens_le
    (h : Derives phrase w e) :
    Token.nesting (Expr.encloseBelow phrase.rank e e.toTokens) ≤ Token.nesting w := by
  induction h with
  | @ofTerm w e _ ih | @ofFactor w e _ ih =>
      exact le_trans (Expr.nesting_encloseBelow_mono e.level_toTokens (by decide)) ih
  | @additive op u v a b hop left right ihL ihR =>
      have hrank : op.rank = 0 := by
        rcases hop with rfl | rfl <;> rfl
      have hroot : Phrase.expression.rank ≤ (Expr.operation op a b).rank := Nat.zero_le _
      rw [Expr.encloseBelow_of_le hroot, Expr.nesting_toTokens_operation, hrank,
        Token.nesting_operation (level_of_derives left)]
      exact max_le_max ihL ihR
  | @multiply u v a b left right ihL ihR =>
      have hroot : Phrase.term.rank ≤ (Expr.operation .multiply a b).rank := Nat.le_refl _
      rw [Expr.encloseBelow_of_le hroot, Expr.nesting_toTokens_operation,
        Token.nesting_operation (level_of_derives left)]
      exact max_le_max ihL ihR
  | constant _ | letter _ =>
      exact Nat.le_refl _
  | @bracket w e inner ih =>
      have hroot : Phrase.expression.rank ≤ e.rank := Nat.zero_le _
      rw [Expr.encloseBelow_of_le hroot] at ih
      calc Token.nesting (Expr.encloseBelow 2 e e.toTokens)
          ≤ Token.nesting e.toTokens + 1 := Expr.nesting_encloseBelow_le e.level_toTokens 2
        _ ≤ Token.nesting w + 1 := Nat.add_le_add_right ih 1
        _ = Token.nesting (Expr.enclose w) := (Token.nesting_enclose (level_of_derives inner)).symm

theorem nesting_toTokens_le
    (h : Derives phrase w e) :
    Token.nesting e.toTokens ≤ Token.nesting w :=
  le_trans (Expr.nesting_le_encloseBelow e.level_toTokens phrase.rank)
    (nesting_encloseBelow_toTokens_le h)

theorem shallow_toTokens
    (h : Derives phrase w e)
    (hshallow : Token.Shallow w) :
    Token.Shallow e.toTokens := by
  rw [Token.shallow_iff] at hshallow ⊢
  exact le_trans (nesting_toTokens_le h) hshallow

/-- Two constants never touch in a phrase. -/
theorem isChain_apart_of_derives
    (h : Derives phrase w e) :
    w.IsChain Token.Apart := by
  induction h with
  | ofTerm _ ih | ofFactor _ ih =>
      exact ih
  | additive _ _ _ ihL ihR | multiply _ _ ihL ihR =>
      exact Token.isChain_apart_between rfl ihL ihR
  | constant _ | letter _ =>
      exact List.isChain_singleton _
  | @bracket w e _ ih =>
      have hopening : ([] ++ Token.opening :: w).IsChain Token.Apart :=
        Token.isChain_apart_between rfl List.isChain_nil ih
      exact Token.isChain_apart_between rfl hopening List.isChain_nil

/-- All phrases of an expression have the same tokens apart from brackets. -/
theorem unsigned_toTokens
    (h : Derives phrase w e)
    (hunsigned : ∀ token ∈ w, token.Unsigned) :
    ∀ token ∈ e.toTokens, token.Unsigned := by
  intro token htoken
  cases hbracket : token.isBracket with
  | true =>
      cases token with
      | opening | closing =>
          trivial
      | constant _ | letter _ | operator _ =>
          cases hbracket
  | false =>
      have hbare : Token.bare e.toTokens = Token.bare w := by
        rw [bare_eq_inorder (derives_toTokens e), bare_eq_inorder h]
      have hmem : token ∈ Token.bare w := by
        rw [← hbare]
        exact List.mem_filter.2 ⟨htoken, by simp [hbracket]⟩
      exact hunsigned token (List.mem_filter.1 hmem).1

theorem legible_toTokens
    (h : Derives phrase w e)
    (hunsigned : ∀ token ∈ w, token.Unsigned) :
    Token.Legible e.toTokens where
  unsigned := unsigned_toTokens h hunsigned
  apart := isChain_apart_of_derives (derives_toTokens e)

end Grammar

namespace Expr

/-- An expression that was read can be read from its sparing tokens. -/
theorem ofTokens_toTokens_of_ok
    {w : List Token} {e : Expr}
    (h : ofTokens w = .ok e) :
    ofTokens e.toTokens = .ok e := by
  obtain ⟨hderives, hshallow⟩ := (ofTokens_eq_ok_iff w e).1 h
  exact
    (ofTokens_eq_ok_iff _ e).2
      ⟨derives_expression_toTokens e, shallow_toTokens hderives hshallow⟩

end Expr
end Reckoner
