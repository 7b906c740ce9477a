import Reckoner.Proofs.Sparing

/-!
# The shortest spelling of an expression

Of all token lists that are read as an expression, its sparing tokens are the only shortest one.
Every other list is thinned out to them: each pair of brackets that they contain is forced by
the ranks of the operators, so it stands in every phrase of the expression, and all other
brackets are taken out.

Thinning a list does not bound its nesting, since a closing bracket may go without the bracket
that it closes.  The bound on the nesting is an induction of its own.

**Results.**
* `thinned_toTokens`: a phrase is thinned out to the sparing tokens of its expression.
* `toTokens_shortest`: the sparing tokens among all that are read as an expression.
-/

namespace Reckoner

open Grammar

namespace Token

/-- The second list is the first one with some of its brackets taken out. -/
inductive Thinned : List Token → List Token → Prop
  | nil :
      Thinned [] []
  | keep
      (token : Token) {u v : List Token}
      (h : Thinned u v) :
      Thinned (token :: u) (token :: v)
  | drop
      {token : Token} {u v : List Token}
      (hbracket : token.isBracket = true)
      (h : Thinned u v) :
      Thinned (token :: u) v

theorem Thinned.refl (w : List Token) : Thinned w w := by
  induction w with
  | nil =>
      exact .nil
  | cons token rest ih =>
      exact .keep token ih

theorem Thinned.append
    {s t u v : List Token}
    (hst : Thinned s t)
    (huv : Thinned u v) :
    Thinned (s ++ u) (t ++ v) := by
  induction hst with
  | nil =>
      exact huv
  | keep token _ ih =>
      exact .keep token ih
  | drop hbracket _ ih =>
      exact .drop hbracket ih

theorem Thinned.trans
    {u v w : List Token}
    (huv : Thinned u v)
    (hvw : Thinned v w) :
    Thinned u w := by
  induction huv generalizing w with
  | nil =>
      exact hvw
  | keep token _ ih =>
      cases hvw with
      | keep _ hvw =>
          exact .keep token (ih hvw)
      | drop hbracket hvw =>
          exact .drop hbracket (ih hvw)
  | drop hbracket _ ih =>
      exact .drop hbracket (ih hvw)

theorem Thinned.sublist
    {u v : List Token}
    (h : Thinned u v) :
    v.Sublist u := by
  induction h with
  | nil =>
      exact .slnil
  | keep token _ ih =>
      exact .cons_cons token ih
  | @drop token _ _ _ _ ih =>
      exact .cons token ih

end Token

namespace Expr

variable {e : Expr} {u v : List Token}

theorem thinned_enclose
    (h : Token.Thinned u v) :
    Token.Thinned (enclose u) (enclose v) :=
  .keep .opening (h.append (.refl [.closing]))

/-- An enclosed list is thinned out to what it encloses. -/
theorem thinned_of_enclose (w : List Token) :
    Token.Thinned (enclose w) w := by
  have hclosing : Token.Thinned (w ++ [.closing]) (w ++ []) :=
    (Token.Thinned.refl w).append (.drop rfl .nil)
  rw [List.append_nil] at hclosing
  exact .drop rfl hclosing

theorem thinned_enclose_encloseBelow
    (k : Nat)
    (w : List Token) :
    Token.Thinned (enclose w) (encloseBelow k e w) := by
  unfold encloseBelow
  split
  · exact .refl _
  · exact thinned_of_enclose w

/-- Where a lower rank is enough, fewer brackets are left. -/
theorem thinned_encloseBelow_mono
    {k l : Nat}
    (hkl : k ≤ l)
    (w : List Token) :
    Token.Thinned (encloseBelow l e w) (encloseBelow k e w) := by
  by_cases hrank : e.rank < l
  · rw [encloseBelow, if_pos hrank]
    exact thinned_enclose_encloseBelow k w
  · rw [encloseBelow_of_le (by omega), encloseBelow_of_le (by omega)]
    exact .refl w

end Expr

namespace Grammar

variable {phrase : Phrase} {w : List Token} {e : Expr}

/-- In the place of a phrase, the phrase is thinned out to the sparing tokens. -/
theorem thinned_encloseBelow_toTokens
    (h : Derives phrase w e) :
    Token.Thinned w (Expr.encloseBelow phrase.rank e e.toTokens) := by
  induction h with
  | @ofTerm w e _ ih | @ofFactor w e _ ih =>
      exact ih.trans (Expr.thinned_encloseBelow_mono (by decide) e.toTokens)
  | @additive op u v a b hop _ _ ihL ihR =>
      have hrank : op.rank = 0 := by
        rcases hop with rfl | rfl <;> rfl
      have hroot : Phrase.expression.rank ≤ (Expr.operation op a b).rank := Nat.zero_le _
      rw [Expr.encloseBelow_of_le hroot, Expr.toTokens, hrank]
      exact ihL.append (.keep (.operator op) ihR)
  | @multiply u v a b _ _ ihL ihR =>
      have hroot : Phrase.term.rank ≤ (Expr.operation .multiply a b).rank := Nat.le_refl _
      rw [Expr.encloseBelow_of_le hroot]
      exact ihL.append (.keep (.operator .multiply) ihR)
  | constant _ | letter _ =>
      exact .refl _
  | @bracket w e _ ih =>
      have hroot : Phrase.expression.rank ≤ e.rank := Nat.zero_le _
      rw [Expr.encloseBelow_of_le hroot] at ih
      -- The pair stays if the sparing tokens need it here, and is taken out otherwise.
      exact (Expr.thinned_enclose ih).trans (Expr.thinned_enclose_encloseBelow _ e.toTokens)

theorem thinned_toTokens
    (h : Derives .expression w e) :
    Token.Thinned w e.toTokens := by
  have hroot : Phrase.expression.rank ≤ e.rank := Nat.zero_le _
  have hthinned := thinned_encloseBelow_toTokens h
  rwa [Expr.encloseBelow_of_le hroot] at hthinned

end Grammar

namespace Expr

/-- The sparing tokens of an expression are read as it, and any other list that is read as it is
thinned out to them by taking out brackets alone.  So the other list is longer, and it is
nested as deeply or deeper. -/
theorem toTokens_shortest
    {w : List Token} {e : Expr}
    (h : ofTokens w = .ok e) :
    ofTokens e.toTokens = .ok e
      ∧
    Token.Thinned w e.toTokens
      ∧
    e.toTokens.length ≤ w.length
      ∧
    (e.toTokens.length = w.length → w = e.toTokens)
      ∧
    Token.nesting e.toTokens ≤ Token.nesting w := by
  have hderives : Derives .expression w e := ((ofTokens_eq_ok_iff w e).1 h).1
  have hthinned : Token.Thinned w e.toTokens := thinned_toTokens hderives
  refine
    ⟨ofTokens_toTokens_of_ok h, hthinned, hthinned.sublist.length_le, ?_,
      nesting_toTokens_le hderives⟩
  intro hlength
  exact (hthinned.sublist.eq_of_length hlength).symm

/-- The tokens of `((2)) * ((3 - 1))`. -/
def superfluous : List Token :=
  [.opening, .opening, .constant 2, .closing, .closing, .operator .multiply,
    .opening, .opening, .constant 3, .operator .subtract, .constant 1, .closing, .closing]

/-- Three of the four pairs of brackets are taken out, and the nesting of two goes down. -/
theorem toTokens_shortest_superfluous :
    ∃ e,
      ofTokens superfluous = .ok e ∧
      e.toTokens =
        [.constant 2, .operator .multiply,
          .opening, .constant 3, .operator .subtract, .constant 1, .closing] ∧
      Token.Thinned superfluous e.toTokens ∧
      e.toTokens.length ≤ superfluous.length ∧
      superfluous ≠ e.toTokens ∧
      Token.nesting e.toTokens ≤ Token.nesting superfluous := by
  have h :
      ofTokens superfluous =
        .ok (.operation .multiply (.literal 2)
          (.operation .subtract (.literal 3) (.literal 1))) := by
    rfl
  obtain ⟨_, hthinned, hlength, _, hnesting⟩ := toTokens_shortest h
  exact ⟨_, h, rfl, hthinned, hlength, by decide, hnesting⟩

end Expr
end Reckoner
