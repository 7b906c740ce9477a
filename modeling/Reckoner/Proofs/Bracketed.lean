import Reckoner.Proofs.Rereading
import Reckoner.Proofs.Written

/-!
# Fully bracketed texts

With brackets around every operation, an expression is nested as deeply as it is high, whichever
way it leans.  Its tokens are a factor of the grammar.  So the text is read as the expression, or
refused: for a negative literal, or because some operation lies below 256 others.

Even where the text is refused it still shows which expression it belongs to.  No fully bracketed
list of tokens begins with another one, and so the operands of an operation can be told apart.

**Results.**
* `height_le_iff`: the height is the greatest number of operations that a path passes.
* `derives_toBracketedTokens` and `nesting_toBracketedTokens`: the brackets follow the grammar and
  are nested as deeply as the expression is high.
* `toBracketedTokens_append_inj`: a fully bracketed expression is told from what follows it.
* `toBracketedText_faithful`: the text is read as its expression or refused, and no other
  expression has it.
-/

namespace Reckoner

open Grammar

namespace Expr

section Height

/-- The expression has a path from its root to a leaf that passes the given number of
operations. -/
inductive Passes : Expr → Nat → Prop
  | literal (n : Int32) :
      Passes (.literal n) 0
  | letter (v : Letter) :
      Passes (.letter v) 0
  | left
      {op : Operator} {left right : Expr} {k : Nat}
      (below : Passes left k) :
      Passes (.operation op left right) (k + 1)
  | right
      {op : Operator} {left right : Expr} {k : Nat}
      (below : Passes right k) :
      Passes (.operation op left right) (k + 1)

/-- The number of operations on a longest path. -/
def height : Expr → Nat
  | literal _ | letter _ => 0
  | operation _ left right => max left.height right.height + 1

theorem passes_height (e : Expr) :
    e.Passes e.height := by
  induction e with
  | literal n =>
      exact .literal n
  | letter v =>
      exact .letter v
  | operation op left right ihL ihR =>
      rw [height]
      rcases Nat.le_total left.height right.height with hle | hle
      · rw [Nat.max_eq_right hle]
        exact .right ihR
      · rw [Nat.max_eq_left hle]
        exact .left ihL

theorem le_height_of_passes
    {e : Expr} {k : Nat}
    (h : e.Passes k) :
    k ≤ e.height := by
  induction h with
  | literal _ | letter _ =>
      exact Nat.le_refl _
  | left _ ih =>
      exact Nat.succ_le_succ (Nat.le_trans ih (Nat.le_max_left _ _))
  | right _ ih =>
      exact Nat.succ_le_succ (Nat.le_trans ih (Nat.le_max_right _ _))

/-- The height is the greatest number of operations that a path passes. -/
theorem height_le_iff
    (e : Expr)
    (k : Nat) :
    e.height ≤ k ↔ ∀ n, e.Passes n → n ≤ k := by
  constructor
  · intro h n hpasses
    exact Nat.le_trans (le_height_of_passes hpasses) h
  · intro h
    exact h _ e.passes_height

theorem height_differences (n : Nat) :
    (differences n).height = n := by
  induction n with
  | zero =>
      rfl
  | succ n ih =>
      rw [differences, height, height, ih, Nat.max_eq_right (Nat.zero_le n)]

end Height

section Brackets

theorem derives_toBracketedTokens (e : Expr) :
    Derives .factor e.toBracketedTokens e := by
  induction e with
  | literal n =>
      exact .constant n
  | letter v =>
      exact .letter v
  | operation op left right ihL ihR =>
      have hinner :
          Derives (.ofRank op.rank)
            (left.toBracketedTokens ++ .operator op :: right.toBracketedTokens)
            (.operation op left right) :=
        .operation (ihL.ofRank_of_factor _) (ihR.ofRank_of_factor _)
      exact .bracket (hinner.lower (Nat.zero_le _))

theorem derives_expression_toBracketedTokens (e : Expr) :
    Derives .expression e.toBracketedTokens e :=
  .ofTerm (.ofFactor (derives_toBracketedTokens e))

theorem nesting_toBracketedTokens (e : Expr) :
    Token.nesting e.toBracketedTokens = e.height := by
  induction e with
  | literal _ | letter _ =>
      rfl
  | operation op left right ihL ihR =>
      have hleft := level_of_derives (derives_toBracketedTokens left)
      have hright := level_of_derives (derives_toBracketedTokens right)
      rw [toBracketedTokens, height,
        Token.nesting_enclose (Token.level_append hleft (Token.level_operator_cons op hright)),
        Token.nesting_operation hleft, ihL, ihR]

/-- The brackets respect the limit if no path passes more operations than that. -/
theorem shallow_toBracketedTokens_iff (e : Expr) :
    Token.Shallow e.toBracketedTokens ↔ ∀ k, e.Passes k → k ≤ 256 := by
  rw [Token.shallow_iff, nesting_toBracketedTokens, height_le_iff]
  rfl

/-- A fully bracketed expression is told from what follows it. -/
theorem toBracketedTokens_append_inj
    {a b : Expr} {u v : List Token}
    (h : a.toBracketedTokens ++ u = b.toBracketedTokens ++ v) :
    a = b ∧ u = v := by
  induction a generalizing b u v with
  | literal m =>
      cases b with
      | literal n =>
          obtain ⟨hnumber, hrest⟩ := List.cons.inj h
          cases hnumber
          exact ⟨rfl, hrest⟩
      | letter _ | operation _ _ _ =>
          cases (List.cons.inj h).1
  | letter x =>
      cases b with
      | letter y =>
          obtain ⟨hletter, hrest⟩ := List.cons.inj h
          cases hletter
          exact ⟨rfl, hrest⟩
      | literal _ | operation _ _ _ =>
          cases (List.cons.inj h).1
  | operation op left right ihL ihR =>
      cases b with
      | literal _ | letter _ =>
          cases (List.cons.inj h).1
      | operation other first second =>
          simp only [toBracketedTokens, enclose, List.cons_append, List.append_assoc,
            List.nil_append, List.cons.injEq, true_and] at h
          obtain ⟨rfl, hfromOperator⟩ := ihL h
          obtain ⟨hop, hfromRight⟩ := List.cons.inj hfromOperator
          cases hop
          obtain ⟨rfl, hfromClosing⟩ := ihR hfromRight
          exact ⟨rfl, (List.cons.inj hfromClosing).2⟩

end Brackets

section Texts

theorem toBracketedText_inj
    {a b : Expr}
    (h : a.toBracketedText = b.toBracketedText) :
    a = b := by
  have htokens : a.toBracketedTokens = b.toBracketedTokens :=
    Token.spell_inj
      (isChain_apart_of_derives (derives_toBracketedTokens a))
      (isChain_apart_of_derives (derives_toBracketedTokens b))
      h
  exact (toBracketedTokens_append_inj (congrArg (· ++ []) htokens)).1

/-- The fully bracketed text of an expression is read as that expression or refused.  It is read
if no literal is negative and no path passes more than 256 operations.  Otherwise it is refused,
as unusable input exactly if the least literal occurs, and else for its grammar.  Whether it is
read or not, no other expression has this text. -/
theorem toBracketedText_faithful :
    (∀ e : Expr,
      (ofText (some e.toBracketedText) = .ok e
          ↔
        (∀ n ∈ e.literals, 0 ≤ n) ∧ ∀ k, e.Passes k → k ≤ 256)
        ∧
      (¬ ((∀ n ∈ e.literals, 0 ≤ n) ∧ ∀ k, e.Passes k → k ≤ 256) →
        ∃ failure,
          ofText (some e.toBracketedText) = .error failure ∧
          (failure.variant = .input ↔ -2147483648 ∈ e.literals) ∧
          (failure.variant = .grammar ↔ -2147483648 ∉ e.literals))
        ∧
      (∀ other, ofText (some e.toBracketedText) = .ok other → other = e))
      ∧
    ∀ a b : Expr, a.toBracketedText = b.toBracketedText → a = b := by
  refine ⟨fun e => ?_, fun a b => toBracketedText_inj⟩
  have hderives := derives_expression_toBracketedTokens e
  rw [← shallow_toBracketedTokens_iff]
  by_cases h : (∀ n ∈ e.literals, 0 ≤ n) ∧ Token.Shallow e.toBracketedTokens
  · have hread : ofText (some e.toBracketedText) = .ok e :=
      ofText_spell_of_shallow hderives h.1 h.2
    refine ⟨iff_of_true hread h, fun hnot => absurd h hnot, ?_⟩
    intro other hother
    rw [hread] at hother
    cases hother
    rfl
  · obtain ⟨failure, hrefused, hvariant⟩ :
        ∃ failure,
          ofText (some e.toBracketedText) = .error failure ∧
          (failure.variant = .input ↔ -2147483648 ∈ e.literals) ∧
          (failure.variant = .grammar ↔ -2147483648 ∉ e.literals) :=
      ofText_spell_of_not hderives h
    refine ⟨iff_of_false ?_ h, fun _ => ⟨failure, hrefused, hvariant⟩, ?_⟩
    · rw [hrefused]
      simp
    · intro other hother
      rw [hrefused] at hother
      cases hother

/-- Below 256 differences the innermost literal is still read, and below one more it is not.  The
text of `1 - -2` is refused, but it is not the text of `1 - 2`. -/
theorem toBracketedText_faithful_differences :
    ofText (some (differences 256).toBracketedText) = .ok (differences 256)
      ∧
    (∃ failure,
      ofText (some (differences 257).toBracketedText) = .error failure ∧
      failure.variant = .grammar)
      ∧
    (∃ failure,
      ofText (some (operation .subtract (literal 1) (literal (-2147483648))).toBracketedText) =
        .error failure ∧
      failure.variant = .input)
      ∧
    (operation .subtract (literal 1) (literal (-2))).toBracketedText ≠
      (operation .subtract (literal 1) (literal 2)).toBracketedText := by
  obtain ⟨hread, hdifferent⟩ := toBracketedText_faithful
  have hunsigned : ∀ n, ∀ m ∈ (differences n).literals, 0 ≤ m :=
    fun _ _ => nonneg_of_mem_literals_differences
  have hlow : ∀ k, (differences 256).Passes k → k ≤ 256 := by
    rw [← height_le_iff, height_differences]
  have hhigh : ¬ ∀ k, (differences 257).Passes k → k ≤ 256 := by
    rw [← height_le_iff, height_differences]
    decide
  refine ⟨(hread (differences 256)).1.2 ⟨hunsigned _, hlow⟩, ?_, ?_, ?_⟩
  · obtain ⟨failure, hrefused, _, hgrammar⟩ :=
      (hread (differences 257)).2.1 fun h => hhigh h.2
    have hleast : -2147483648 ∉ (differences 257).literals :=
      fun hmem => absurd (hunsigned _ _ hmem) (by decide)
    exact ⟨failure, hrefused, hgrammar.2 hleast⟩
  · obtain ⟨failure, hrefused, hinput, _⟩ :=
      (hread (operation .subtract (literal 1) (literal (-2147483648)))).2.1
        fun h => absurd (h.1 (-2147483648) (by decide)) (by decide)
    exact ⟨failure, hrefused, hinput.2 (by decide)⟩
  · intro hsame
    cases hdifferent _ _ hsame

end Texts

end Expr
end Reckoner
