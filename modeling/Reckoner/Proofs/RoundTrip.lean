import Reckoner.Proofs.Acceptance

/-!
# Reading back what was written

The sparing tokens of an expression are derived by the grammar, at the kind of phrase that
belongs to the rank of the expression.  The printer and the grammar agree on when an operand
needs brackets: a phrase of a rank is also one of every lower rank, an operator takes a left
operand of its own rank and a right operand of the next, and brackets lift any expression to
the rank of a factor.

So an expression of any shape is read back as itself, unless its tokens are nested too deeply.

**Results.**
* `derives_toTokens`: the tokens of an expression are a phrase of its rank.
* `ofTokens_toTokens`: what the reader makes of the tokens of an expression.
-/

namespace Reckoner

open Grammar

namespace Grammar

/-- The phrases whose expressions have at least a given rank. -/
def Phrase.ofRank : Nat → Phrase
  | 0 => .expression
  | 1 => .term
  | _ + 2 => .factor

variable {u v w : List Token} {a b e : Expr}

theorem Derives.ofRank_of_factor
    (h : Derives .factor w e)
    (k : Nat) :
    Derives (.ofRank k) w e := by
  match k with
  | 0 =>
      exact .ofTerm (.ofFactor h)
  | 1 =>
      exact .ofFactor h
  | _ + 2 =>
      exact h

/-- A phrase of a rank is also one of every lower rank. -/
theorem Derives.lower
    {j k : Nat}
    (h : Derives (.ofRank j) w e)
    (hjk : k ≤ j) :
    Derives (.ofRank k) w e := by
  match j with
  | 0 =>
      obtain rfl : k = 0 := by omega
      exact h
  | 1 =>
      match k with
      | 0 =>
          exact .ofTerm h
      | 1 =>
          exact h
      | _ + 2 =>
          omega
  | _ + 2 =>
      exact h.ofRank_of_factor k

/-- An operator takes a left operand of its own rank and a right operand of the next. -/
theorem Derives.operation
    {op : Operator}
    (hu : Derives (.ofRank op.rank) u a)
    (hv : Derives (.ofRank (op.rank + 1)) v b) :
    Derives (.ofRank op.rank) (u ++ .operator op :: v) (.operation op a b) := by
  cases op with
  | add =>
      exact .additive (.inl rfl) hu hv
  | subtract =>
      exact .additive (.inr rfl) hu hv
  | multiply =>
      exact .multiply hu hv

/-- Brackets that are put only where they are needed give an expression the rank. -/
theorem Derives.encloseBelow
    (h : Derives (.ofRank e.rank) w e)
    (k : Nat) :
    Derives (.ofRank k) (Expr.encloseBelow k e w) e := by
  unfold Expr.encloseBelow
  split
  · have hbracket : Derives .factor (Expr.enclose w) e :=
      .bracket (h.lower (Nat.zero_le _))
    exact hbracket.ofRank_of_factor k
  · exact h.lower (by omega)

theorem derives_toTokens (e : Expr) :
    Derives (.ofRank e.rank) e.toTokens e := by
  induction e with
  | literal n =>
      exact .constant n
  | letter v =>
      exact .letter v
  | operation op left right ihL ihR =>
      exact .operation (ihL.encloseBelow op.rank) (ihR.encloseBelow (op.rank + 1))

theorem derives_expression_toTokens (e : Expr) :
    Derives .expression e.toTokens e :=
  (derives_toTokens e).lower (Nat.zero_le _)

end Grammar

theorem Failure.message_tooDeep (n : Nat) :
    (Failure.grammar .tooDeep n).message =
      "Syntax error: Brackets nested deeper than 256 levels at index " ++
        String.ofList (Decimal.ofNat n) := by
  have hwording :
      "Syntax error: " ++ Fault.tooDeep.message ++ " at index " =
        "Syntax error: Brackets nested deeper than 256 levels at index " := by
    decide
  show "Syntax error: " ++ Fault.tooDeep.message ++ " at index " ++ _ = _
  rw [hwording]

namespace Expr

/-- The tokens of an expression are read back as that expression as long as they are not nested
too deeply.  Otherwise they are refused, at the first bracket that opens beyond the limit.  They
are never read as another expression. -/
theorem ofTokens_toTokens (e : Expr) :
    (ofTokens e.toTokens = .ok e ↔ Token.Shallow e.toTokens)
      ∧
    (¬ Token.Shallow e.toTokens →
      ∃ n,
        Token.TooDeepAt e.toTokens n ∧
        ofTokens e.toTokens = .error (.grammar .tooDeep n) ∧
        (Failure.grammar .tooDeep n).message =
          "Syntax error: Brackets nested deeper than 256 levels at index " ++
            String.ofList (Decimal.ofNat n))
      ∧
    (∀ other, ofTokens e.toTokens = .ok other → other = e) := by
  have hderives := derives_expression_toTokens e
  have hiff : ofTokens e.toTokens = .ok e ↔ Token.Shallow e.toTokens := by
    rw [ofTokens_eq_ok_iff]
    exact and_iff_right hderives
  refine ⟨hiff, ?_, ?_⟩
  · intro hdeep
    obtain ⟨n, hn, hrefused⟩ := ofTokens_of_deep hderives hdeep
    exact ⟨n, hn, hrefused, Failure.message_tooDeep n⟩
  · intro other hother
    have hshallow := ((ofTokens_eq_ok_iff _ _).1 hother).2
    rw [hiff.2 hshallow] at hother
    cases hother
    rfl

/-- Differences that are nested to the right: all but the outermost need brackets. -/
def differences : Nat → Expr
  | 0 => literal 0
  | n + 1 => operation .subtract (literal 0) (differences n)

theorem nesting_differences (n : Nat) :
    Token.nesting (differences (n + 1)).toTokens = n := by
  induction n with
  | zero =>
      rfl
  | succ n ih =>
      have htokens :
          (differences (n + 2)).toTokens =
            [.constant 0] ++ .operator .subtract :: enclose (differences (n + 1)).toTokens := by
        rfl
      have hinner : Token.Level (differences (n + 1)).toTokens :=
        level_of_derives (derives_toTokens _)
      rw [htokens, Token.nesting_operation (Token.level_constant 0), Token.nesting_enclose hinner,
        ih]
      exact Nat.max_eq_right (Nat.zero_le _)

/-- With 256 brackets open at once the differences are read back, and with one more they are
not. -/
theorem ofTokens_toTokens_differences :
    ofTokens (differences 257).toTokens = .ok (differences 257)
      ∧
    ∃ n,
      Token.TooDeepAt (differences 258).toTokens n ∧
      ofTokens (differences 258).toTokens = .error (.grammar .tooDeep n) := by
  have hfull : Token.Shallow (differences 257).toTokens := by
    rw [Token.shallow_iff, nesting_differences]
    decide
  have hdeep : ¬ Token.Shallow (differences 258).toTokens := by
    rw [Token.shallow_iff, nesting_differences]
    decide
  obtain ⟨n, hn, hrefused, _⟩ := (ofTokens_toTokens (differences 258)).2.1 hdeep
  exact ⟨(ofTokens_toTokens (differences 257)).1.2 hfull, n, hn, hrefused⟩

end Expr
end Reckoner
