import Reckoner.Proofs.Balance

/-!
# Substitution

An expression is put in the place of a letter, in the tree and in its tokens.  The tokens that
take the place have to be a factor, since a letter may stand wherever a factor is asked for.
Brackets make a factor of every expression.

**Results.**
* `evaluate_substitute`: the value that the expression would have had for the letter.
* `Derives.replace`: a factor in the place of a letter gives a phrase of the same kind.
* `ofTokens_replace_enclose`: the tokens are read as the tree in which the expression was put, if
  there is room for its brackets, and are refused as nested too deeply otherwise.
-/

namespace Reckoner

open Grammar

namespace Expr

/-- Puts an expression in the place of a letter. -/
def substitute (e : Expr) (v : Letter) (inner : Expr) : Expr :=
  match e with
  | literal n => .literal n
  | letter w => if w = v then inner else .letter w
  | operation op left right =>
      .operation op (left.substitute v inner) (right.substitute v inner)

/-- An expression that has a value may take the place of a letter with that value. -/
theorem evaluate_substitute
    {values : Valuation} {inner : Expr} {n : Int32}
    (h : inner.evaluate values = .ok n)
    (v : Letter)
    (e : Expr) :
    (e.substitute v inner).evaluate values = e.evaluate (values.insert v n) := by
  induction e with
  | literal m =>
      rfl
  | letter w =>
      by_cases hletter : w = v
      · subst hletter
        simp [substitute, evaluate, h]
      · simp [substitute, evaluate, hletter, Valuation.insert_of_ne]
  | operation op left right ihL ihR =>
      simp only [substitute, evaluate, ihL, ihR]

end Expr

namespace Grammar

/-- Each letter of a phrase may be replaced by a factor. -/
theorem Derives.replace
    {phrase : Phrase} {w u : List Token} {e inner : Expr}
    (hinner : Derives .factor u inner)
    (v : Letter)
    (h : Derives phrase w e) :
    Derives phrase (w.flatMap (Token.replace v u)) (e.substitute v inner) := by
  induction h with
  | ofTerm _ ih =>
      exact .ofTerm ih
  | additive hop _ _ ihL ihR =>
      rw [List.flatMap_append, List.flatMap_cons, Token.replace_of_ne (by simp)]
      exact .additive hop ihL ihR
  | ofFactor _ ih =>
      exact .ofFactor ih
  | multiply _ _ ihL ihR =>
      rw [List.flatMap_append, List.flatMap_cons, Token.replace_of_ne (by simp)]
      exact .multiply ihL ihR
  | constant n =>
      rw [List.flatMap_singleton, Token.replace_of_ne (by simp)]
      exact .constant n
  | letter w =>
      rw [List.flatMap_singleton]
      by_cases hletter : w = v
      · subst hletter
        simpa [Expr.substitute] using hinner
      · rw [Token.replace_of_ne (by simp [hletter]), Expr.substitute, if_neg hletter]
        exact .letter w
  | bracket _ ih =>
      rw [List.flatMap_append, List.flatMap_cons, List.flatMap_singleton,
        Token.replace_of_ne (by simp), Token.replace_of_ne (by simp)]
      exact .bracket ih

end Grammar

namespace Expr

/-- Tokens in which an expression took the place of a letter, in brackets, are read as the tree
in which it did, or are nested too deeply. -/
theorem ofTokens_replace_enclose
    {w u : List Token} {e inner : Expr}
    (h : ofTokens w = .ok e)
    (hinner : ofTokens u = .ok inner)
    (v : Letter) :
    (Token.LeavesRoom v (Token.nesting u + 1) w →
      ofTokens (w.flatMap (Token.replace v (enclose u))) = .ok (e.substitute v inner))
      ∧
    (¬ Token.LeavesRoom v (Token.nesting u + 1) w →
      ∃ position,
        ofTokens (w.flatMap (Token.replace v (enclose u))) =
          .error (.grammar .tooDeep position)) := by
  have hderives := ((ofTokens_eq_ok_iff _ _).1 h).1
  have hinside := ((ofTokens_eq_ok_iff _ _).1 hinner).1
  have hlevel : Token.Level u := level_of_derives hinside
  have hresult :
      Derives .expression (w.flatMap (Token.replace v (enclose u))) (e.substitute v inner) :=
    Derives.replace (.bracket hinside) v hderives
  rw [← Token.nesting_enclose hlevel, ← Token.shallow_replace_iff h (Token.level_enclose hlevel)]
  constructor
  · intro hshallow
    exact (ofTokens_eq_ok_iff _ _).2 ⟨hresult, hshallow⟩
  · intro hdeep
    obtain ⟨position, _, hrefused⟩ := ofTokens_of_deep hresult hdeep
    exact ⟨position, hrefused⟩

end Expr
end Reckoner
