import Reckoner.Expr.Reading
import Reckoner.Proofs.Outcome

/-!
# Steps of the reader

What the reader of a token list does in one step and in many, records left aside.  `Advance`
lists everything that a successful step can do, one rule for each kind of token, and `Refuse`
everything that a failed step can report; all later proofs split a step by these rules and do
not look into the functions of the reader.

**Results.**
* `advance_eq_ok_iff`: the rules of `Advance` are exactly the successful steps.
* `refuse_of_advance_eq_error`: every other step fails by a rule of `Refuse`.
* `advance_eq_error`: a step that fails reports its own position, except that a bracket
  closing an empty group is reported at the position after it.
* `advanceAll_eq_error`: a failed run has a first step that fails.
* `ofTokens_append_of_error`: what follows a failed run makes no difference.
-/

namespace Reckoner
namespace Progress

section OneStep

/-- Reads one token and leaves no record. -/
def advance (p : Progress) (token : Token) : Except Failure Progress :=
  (p.step token).outcome

/-- What a successful step does. -/
inductive Advance : Progress → Token → Progress → Prop
  | constant
      {position : Nat} {outer : List Gap} {gap : Gap}
      (n : Int32) :
      Advance ⟨position, outer, .waiting gap⟩ (.constant n)
        ⟨position + 1, outer, .complete (gap.fill (.literal n))⟩
  | letter
      {position : Nat} {outer : List Gap} {gap : Gap}
      (v : Letter) :
      Advance ⟨position, outer, .waiting gap⟩ (.letter v)
        ⟨position + 1, outer, .complete (gap.fill (.letter v))⟩
  | operator
      {position : Nat} {outer : List Gap} {run : Run}
      (op : Operator) :
      Advance ⟨position, outer, .complete run⟩ (.operator op)
        ⟨position + 1, outer, .waiting (run.extend op)⟩
  | opening
      {position : Nat} {outer : List Gap} {gap : Gap}
      (hroom : outer.length ≠ Grammar.depthLimit) :
      Advance ⟨position, outer, .waiting gap⟩ .opening
        ⟨position + 1, gap :: outer, .waiting .first⟩
  | closing
      {position : Nat} {gap : Gap} {outer : List Gap} {run : Run} :
      Advance ⟨position, gap :: outer, .complete run⟩ .closing
        ⟨position + 1, outer, .complete (gap.fill run.total)⟩

theorem advance_of_rule
    {p q : Progress} {token : Token}
    (h : Advance p token q) :
    p.advance token = .ok q := by
  cases h with
  | opening hroom =>
      simp only [advance, step, Progress.opening, depth, hroom, if_false]
      rfl
  | constant _ | letter _ | operator _ | closing =>
      rfl

/-- The rules are exactly the successful steps. -/
theorem advance_eq_ok_iff
    {p q : Progress} {token : Token} :
    p.advance token = .ok q ↔ Advance p token q := by
  constructor
  · intro h
    obtain ⟨position, outer, group⟩ := p
    cases token with
    | constant n =>
        cases group with
        | waiting gap =>
            cases h
            exact .constant n
        | complete run =>
            cases h
    | letter v =>
        cases group with
        | waiting gap =>
            cases h
            exact .letter v
        | complete run =>
            cases h
    | operator op =>
        cases group with
        | waiting gap =>
            cases gap <;> cases h
        | complete run =>
            cases h
            exact .operator op
    | opening =>
        cases group with
        | waiting gap =>
            by_cases hroom : outer.length = Grammar.depthLimit
            · simp [advance, step, Progress.opening, depth, refuse, hroom] at h
            · rw [advance_of_rule (.opening hroom)] at h
              cases h
              exact .opening hroom
        | complete run =>
            cases h
    | closing =>
        cases group with
        | waiting gap =>
            cases gap <;> cases outer <;> cases h
        | complete run =>
            cases outer with
            | nil =>
                cases h
            | cons gap outer =>
                cases h
                exact .closing
  · exact advance_of_rule

/-- What a refused step reports: its fault and a position. -/
inductive Refuse : Progress → Token → Grammar.Fault → Nat → Prop
  | constant
      {position : Nat} {outer : List Gap} {run : Run}
      (n : Int32) :
      Refuse ⟨position, outer, .complete run⟩ (.constant n) .missingOperator position
  | letter
      {position : Nat} {outer : List Gap} {run : Run}
      (v : Letter) :
      Refuse ⟨position, outer, .complete run⟩ (.letter v) .missingOperator position
  | opening
      {position : Nat} {outer : List Gap} {run : Run} :
      Refuse ⟨position, outer, .complete run⟩ .opening .missingOperator position
  | tooDeep
      {position : Nat} {outer : List Gap} {gap : Gap}
      (hfull : outer.length = Grammar.depthLimit) :
      Refuse ⟨position, outer, .waiting gap⟩ .opening .tooDeep position
  | leading
      {position : Nat} {outer : List Gap}
      (op : Operator) :
      Refuse ⟨position, outer, .waiting .first⟩ (.operator op) .leadingOperator position
  | operator
      {position : Nat} {outer : List Gap} {gap : Gap}
      (hgap : gap ≠ .first)
      (op : Operator) :
      Refuse ⟨position, outer, .waiting gap⟩ (.operator op) .missingOperand position
  | closing
      {position : Nat} {outer : List Gap} {gap : Gap}
      (hgap : gap ≠ .first) :
      Refuse ⟨position, outer, .waiting gap⟩ .closing .missingOperand position
  | unmatchedFirst
      {position : Nat} :
      Refuse ⟨position, [], .waiting .first⟩ .closing .unmatchedClosing position
  | unmatched
      {position : Nat} {run : Run} :
      Refuse ⟨position, [], .complete run⟩ .closing .unmatchedClosing position
  | emptyGroup
      {position : Nat} {gap : Gap} {outer : List Gap} :
      Refuse ⟨position, gap :: outer, .waiting .first⟩ .closing .missingElement (position + 1)

theorem refuse_of_advance_eq_error
    {p : Progress} {token : Token} {failure : Failure}
    (h : p.advance token = .error failure) :
    ∃ fault position,
      failure = .grammar fault position ∧ Refuse p token fault position := by
  obtain ⟨position, outer, group⟩ := p
  cases token with
  | constant n =>
      cases group with
      | waiting gap =>
          cases h
      | complete run =>
          cases h
          exact ⟨_, _, rfl, .constant n⟩
  | letter v =>
      cases group with
      | waiting gap =>
          cases h
      | complete run =>
          cases h
          exact ⟨_, _, rfl, .letter v⟩
  | operator op =>
      cases group with
      | waiting gap =>
          cases gap with
          | first =>
              cases h
              exact ⟨_, _, rfl, .leading op⟩
          | term _ _ | factor _ _ =>
              cases h
              exact ⟨_, _, rfl, .operator (by simp) op⟩
      | complete run =>
          cases h
  | opening =>
      cases group with
      | waiting gap =>
          by_cases hroom : outer.length = Grammar.depthLimit
          · simp only [advance, step, Progress.opening, depth, refuse, hroom, if_true,
              Logged.outcome_fail] at h
            cases h
            exact ⟨_, _, rfl, .tooDeep hroom⟩
          · rw [advance_of_rule (.opening hroom)] at h
            cases h
      | complete run =>
          cases h
          exact ⟨_, _, rfl, .opening⟩
  | closing =>
      cases group with
      | waiting gap =>
          cases gap with
          | first =>
              cases outer with
              | nil =>
                  cases h
                  exact ⟨_, _, rfl, .unmatchedFirst⟩
              | cons gap outer =>
                  cases h
                  exact ⟨_, _, rfl, .emptyGroup⟩
          | term _ _ | factor _ _ =>
              cases h
              exact ⟨_, _, rfl, .closing (by simp)⟩
      | complete run =>
          cases outer with
          | nil =>
              cases h
              exact ⟨_, _, rfl, .unmatched⟩
          | cons gap outer =>
              cases h

/-- A failed step reports its own position.  Only the bracket that closes an empty group is
read before the emptiness is reported. -/
theorem advance_eq_error
    {p : Progress} {token : Token} {failure : Failure}
    (h : p.advance token = .error failure) :
    (∃ fault, failure = .grammar fault p.position)
      ∨
    (token = .closing ∧ p.group = .waiting .first ∧ p.outer ≠ [] ∧
      failure = .grammar .missingElement (p.position + 1)) := by
  obtain ⟨fault, position, rfl, hrefuse⟩ := refuse_of_advance_eq_error h
  cases hrefuse with
  | emptyGroup =>
      exact .inr ⟨rfl, rfl, by simp, rfl⟩
  | constant _ | letter _ | opening | tooDeep _ | leading _ | operator _ _ | closing _
  | unmatchedFirst | unmatched =>
      exact .inl ⟨_, rfl⟩

/-- With every level taken, a bracket that could open is refused. -/
theorem advance_opening_of_full
    (position : Nat)
    {outer : List Gap}
    (gap : Gap)
    (hfull : outer.length = Grammar.depthLimit) :
    advance ⟨position, outer, .waiting gap⟩ .opening =
      .error (.grammar .tooDeep position) := by
  simp [advance, step, Progress.opening, depth, refuse, hfull]

end OneStep

section ManySteps

/-- Reads tokens one after another. -/
def advanceAll (p : Progress) (tokens : List Token) : Except Failure Progress :=
  tokens.foldlM advance p

@[simp] theorem advanceAll_nil (p : Progress) :
    p.advanceAll [] = .ok p := by
  rfl

@[simp] theorem advanceAll_cons
    (p : Progress)
    (token : Token)
    (tokens : List Token) :
    p.advanceAll (token :: tokens) =
      p.advance token >>= fun q => q.advanceAll tokens :=
  List.foldlM_cons

theorem advanceAll_append
    (p : Progress)
    (u v : List Token) :
    p.advanceAll (u ++ v) =
      p.advanceAll u >>= fun q => q.advanceAll v :=
  List.foldlM_append

theorem advanceAll_cons_of_rule
    {p q : Progress} {token : Token}
    (h : Advance p token q)
    (tokens : List Token) :
    p.advanceAll (token :: tokens) = q.advanceAll tokens := by
  rw [advanceAll_cons, advance_of_rule h, ok_bind]

theorem advanceAll_cons_eq_ok
    {p r : Progress} {token : Token} {tokens : List Token}
    (h : p.advanceAll (token :: tokens) = .ok r) :
    ∃ q, Advance p token q ∧ q.advanceAll tokens = .ok r := by
  rw [advanceAll_cons, bind_eq_ok_iff] at h
  obtain ⟨q, hstep, hrest⟩ := h
  exact ⟨q, advance_eq_ok_iff.1 hstep, hrest⟩

theorem advanceAll_append_of_ok
    {p q : Progress} {u : List Token}
    (h : p.advanceAll u = .ok q)
    (v : List Token) :
    p.advanceAll (u ++ v) = q.advanceAll v := by
  rw [advanceAll_append, h, ok_bind]

theorem advanceAll_append_of_error
    {p : Progress} {u : List Token} {failure : Failure}
    (h : p.advanceAll u = .error failure)
    (v : List Token) :
    p.advanceAll (u ++ v) = .error failure := by
  rw [advanceAll_append, h, error_bind]

/-- A failed run has a first step that fails. -/
theorem advanceAll_eq_error
    {p : Progress} {tokens : List Token} {failure : Failure}
    (h : p.advanceAll tokens = .error failure) :
    ∃ u token v q,
      tokens = u ++ token :: v ∧
      p.advanceAll u = .ok q ∧
      q.advance token = .error failure := by
  induction tokens generalizing p with
  | nil =>
      simp at h
  | cons token rest ih =>
      rw [advanceAll_cons, bind_eq_error_iff] at h
      rcases h with hstep | ⟨q, hstep, hrest⟩
      · exact ⟨[], token, rest, p, rfl, rfl, hstep⟩
      · obtain ⟨u, t, v, r, rfl, hu, ht⟩ := ih hrest
        refine ⟨token :: u, t, v, r, rfl, ?_, ht⟩
        rw [advanceAll_cons, hstep, ok_bind, hu]

end ManySteps

end Progress

namespace Expr

open Progress

theorem ofTokens_eq_advanceAll (tokens : List Token) :
    ofTokens tokens = start.advanceAll tokens >>= finish :=
  ofTokens_eq tokens

theorem ofTokens_append_of_ok
    {u : List Token} {p : Progress}
    (h : start.advanceAll u = .ok p)
    (v : List Token) :
    ofTokens (u ++ v) = p.advanceAll v >>= finish := by
  rw [ofTokens_eq_advanceAll, advanceAll_append_of_ok h]

/-- What follows a failed run makes no difference. -/
theorem ofTokens_append_of_error
    {u : List Token} {failure : Failure}
    (h : start.advanceAll u = .error failure)
    (v : List Token) :
    ofTokens (u ++ v) = .error failure := by
  rw [ofTokens_eq_advanceAll, advanceAll_append_of_error h, error_bind]

end Expr
end Reckoner
