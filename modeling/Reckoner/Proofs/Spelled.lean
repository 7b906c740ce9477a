import Reckoner.Proofs.Derivation
import Reckoner.Proofs.Steps

/-!
# What the reader has read

The invariant of the reader: the tokens read so far are spelled out by what it keeps.  Every
gap around the group in hand stands for the tokens in front of an opening bracket, and the
group in hand for the tokens after the last of these brackets.  Each finished sum and each
product that is kept is a phrase of the grammar.

**Results.**
* `spelled_of_rule`: a step keeps the invariant, and `spelled_of_advanceAll`: so does a run.
* `derives_of_finish`: at the end of the tokens the invariant is a derivation.
* `nesting_le_of_advanceAll`: a run never goes beyond the limit on brackets.
-/

namespace Reckoner

open Grammar

section Spelling

/-- The tokens of a finished sum and of the sign after it. -/
inductive SumSpelled : Option (Expr × Operator) → List Token → Prop
  | none :
      SumSpelled none []
  | some
      {a : Expr} {op : Operator} {u : List Token}
      (hop : op.IsAdditive)
      (h : Derives .expression u a) :
      SumSpelled (some (a, op)) (u ++ [.operator op])

/-- The tokens of a group up to a completed operand. -/
inductive Run.Spelled : Run → List Token → Prop
  | intro
      {sum : Option (Expr × Operator)} {product : Expr} {u v : List Token}
      (hsum : SumSpelled sum u)
      (hproduct : Derives .term v product) :
      Run.Spelled ⟨sum, product⟩ (u ++ v)

/-- The tokens of a group in front of an operand that is still to come. -/
inductive Gap.Spelled : Gap → List Token → Prop
  | first :
      Gap.Spelled .first []
  | term
      {a : Expr} {op : Operator} {u : List Token}
      (h : SumSpelled (some (a, op)) u) :
      Gap.Spelled (.term a op) u
  | factor
      {sum : Option (Expr × Operator)} {product : Expr} {u : List Token}
      (h : Run.Spelled ⟨sum, product⟩ u) :
      Gap.Spelled (.factor sum product) (u ++ [.operator .multiply])

/-- The tokens of the group in hand. -/
inductive Group.Spelled : Group → List Token → Prop
  | waiting
      {gap : Gap} {u : List Token}
      (h : gap.Spelled u) :
      Group.Spelled (.waiting gap) u
  | complete
      {run : Run} {u : List Token}
      (h : run.Spelled u) :
      Group.Spelled (.complete run) u

/-- The tokens in front of the group in hand, up to the bracket that opens it. -/
inductive OuterSpelled : List Gap → List Token → Prop
  | nil :
      OuterSpelled [] []
  | cons
      {gap : Gap} {outer : List Gap} {u v : List Token}
      (houter : OuterSpelled outer u)
      (hgap : gap.Spelled v) :
      OuterSpelled (gap :: outer) (u ++ (v ++ [.opening]))

/-- The tokens that have been read, all of them and no other. -/
inductive Progress.Spelled : Progress → List Token → Prop
  | intro
      {position : Nat} {outer : List Gap} {group : Group} {u v : List Token}
      (houter : OuterSpelled outer u)
      (hgroup : group.Spelled v)
      (hposition : position = (u ++ v).length) :
      Progress.Spelled ⟨position, outer, group⟩ (u ++ v)

end Spelling

section Parts

theorem Run.Spelled.derives
    {run : Run} {w : List Token}
    (h : run.Spelled w) :
    Derives .expression w run.total := by
  obtain ⟨hsum, hproduct⟩ := h
  cases hsum with
  | none =>
      exact .ofTerm hproduct
  | some hop ha =>
      rw [List.append_assoc]
      exact .additive hop ha hproduct

/-- A factor completes the group in front of it. -/
theorem Gap.Spelled.fill
    {gap : Gap} {u v : List Token} {e : Expr}
    (h : gap.Spelled u)
    (he : Derives .factor v e) :
    (gap.fill e).Spelled (u ++ v) := by
  cases h with
  | first =>
      exact .intro .none (.ofFactor he)
  | term hsum =>
      exact .intro hsum (.ofFactor he)
  | factor hrun =>
      obtain ⟨hsum, hproduct⟩ := hrun
      simp only [List.append_assoc]
      exact .intro hsum (.multiply hproduct he)

/-- An operator leaves a gap behind a completed operand. -/
theorem Run.Spelled.extend
    {run : Run} {w : List Token}
    (h : run.Spelled w)
    (op : Operator) :
    (run.extend op).Spelled (w ++ [.operator op]) := by
  cases op with
  | add =>
      exact .term (.some (.inl rfl) h.derives)
  | subtract =>
      exact .term (.some (.inr rfl) h.derives)
  | multiply =>
      exact .factor h

end Parts

namespace Progress

section Invariant

theorem spelled_start : start.Spelled [] :=
  .intro .nil (.waiting .first) rfl

theorem Spelled.position_eq
    {p : Progress} {w : List Token}
    (h : p.Spelled w) :
    p.position = w.length := by
  obtain ⟨_, _, hposition⟩ := h
  exact hposition

/-- A step adds its token to those that have been read. -/
theorem spelled_of_rule
    {p q : Progress} {w : List Token} {token : Token}
    (hp : p.Spelled w)
    (h : Advance p token q) :
    q.Spelled (w ++ [token]) := by
  obtain ⟨houter, hgroup, hposition⟩ := hp
  cases h with
  | constant n =>
      cases hgroup with
      | waiting hgap =>
          rw [List.append_assoc]
          refine .intro houter (.complete (hgap.fill (.constant n))) ?_
          simp [hposition, Nat.add_assoc]
  | letter v =>
      cases hgroup with
      | waiting hgap =>
          rw [List.append_assoc]
          refine .intro houter (.complete (hgap.fill (.letter v))) ?_
          simp [hposition, Nat.add_assoc]
  | operator op =>
      cases hgroup with
      | complete hrun =>
          rw [List.append_assoc]
          refine .intro houter (.waiting (hrun.extend op)) ?_
          simp [hposition, Nat.add_assoc]
  | opening _ =>
      cases hgroup with
      | waiting hgap =>
          rw [← List.append_nil (_ ++ [Token.opening]), List.append_assoc _ _ [Token.opening]]
          refine .intro (.cons houter hgap) (.waiting .first) ?_
          simp [hposition, Nat.add_assoc]
  | closing =>
      cases hgroup with
      | complete hrun =>
          cases houter with
          | cons houter hgap =>
              have hfactor := hgap.fill (.bracket hrun.derives)
              simp only [List.append_assoc]
              refine .intro houter (.complete (by simpa using hfactor)) ?_
              simp [hposition, Nat.add_assoc]

theorem spelled_of_advanceAll
    {p q : Progress} {u w : List Token}
    (hp : p.Spelled u)
    (h : p.advanceAll w = .ok q) :
    q.Spelled (u ++ w) := by
  induction w generalizing p u with
  | nil =>
      cases h
      rwa [List.append_nil]
  | cons token rest ih =>
      obtain ⟨p', hstep, hrest⟩ := advanceAll_cons_eq_ok h
      have hp' := spelled_of_rule hp hstep
      have hq := ih hp' hrest
      rwa [List.append_assoc] at hq

/-- A reading can end where all tokens spell one expression without open brackets. -/
theorem derives_of_finish
    {p : Progress} {w : List Token} {e : Expr}
    (hp : p.Spelled w)
    (h : p.finish = .ok e) :
    Derives .expression w e := by
  obtain ⟨houter, hgroup, _⟩ := hp
  cases hgroup with
  | waiting hgap =>
      cases hgap <;> cases h
  | complete hrun =>
      cases houter with
      | nil =>
          cases h
          exact hrun.derives
      | cons _ _ =>
          cases h

end Invariant

section Depth

/-- A run never goes beyond the limit on brackets. -/
theorem nesting_le_of_advanceAll
    {p q : Progress} {w : List Token}
    (hp : p.depth ≤ depthLimit)
    (h : p.advanceAll w = .ok q) :
    p.depth + Token.nesting w ≤ depthLimit := by
  induction w generalizing p with
  | nil =>
      simpa using hp
  | cons token rest ih =>
      obtain ⟨p', hstep, hrest⟩ := advanceAll_cons_eq_ok h
      cases hstep with
      | constant _ | letter _ | operator _ =>
          have hbound := ih (by exact hp) hrest
          exact hbound
      | opening hroom =>
          simp only [depth] at hp
          have hbound := ih (by simp only [depth, List.length_cons]; omega) hrest
          simp only [depth, List.length_cons, Token.nesting_cons, Token.deepen] at hbound ⊢
          omega
      | closing =>
          simp only [depth, List.length_cons] at hp
          have hbound := ih (by simp only [depth]; omega) hrest
          simp only [depth, List.length_cons, Token.nesting_cons, Token.deepen] at hbound ⊢
          omega

theorem nesting_le_of_start
    {p : Progress} {w : List Token}
    (h : start.advanceAll w = .ok p) :
    Token.nesting w ≤ depthLimit := by
  have hbound := nesting_le_of_advanceAll (Nat.zero_le _) h
  rwa [show start.depth = 0 from rfl, Nat.zero_add] at hbound

end Depth

end Progress
end Reckoner
