import Reckoner.Proofs.Letters
import Reckoner.Proofs.Outcome

/-!
# The first letter without a number

Calculating and collecting letters are two walks through an expression.  The calculation stops at
the first letter that has no number; the collection goes on to the end and passes over a letter
that it has seen.  Both go from left to right, and a letter that was passed over has been
calculated before.  So the calculation stops at the first of the collected letters that has no
number, and nothing but such a letter stops it.

**Results.**
* `prefix_lettersAfter`: collecting only adds to what was seen.
* `evaluate_cases`: a calculation after some letters that all have numbers.
* `evaluate_names_first_missing`: when a calculation succeeds, and which letter it reports.
-/

namespace Reckoner
namespace Valuation

/-- The letter has no number, and every letter in front of it has one. -/
def FirstMissing (values : Valuation) (letters : List Letter) (v : Letter) : Prop :=
  values v = none ∧
    ∃ before after,
      letters = before ++ v :: after ∧ ∀ w ∈ before, ∃ n, values w = some n

variable {values : Valuation} {letters : List Letter} {v : Letter}

theorem firstMissing_iff_find? :
    values.FirstMissing letters v
      ↔
    letters.find? (fun w => (values w).isNone) = some v := by
  simp [FirstMissing, List.find?_eq_some_iff_append, Option.isSome_iff_exists]

theorem FirstMissing.unique
    {w : Letter}
    (hv : values.FirstMissing letters v)
    (hw : values.FirstMissing letters w) :
    v = w := by
  rw [firstMissing_iff_find?] at hv hw
  exact Option.some.inj (hv.symm.trans hw)

/-- Letters that come later make no difference. -/
theorem FirstMissing.append
    (h : values.FirstMissing letters v)
    (more : List Letter) :
    values.FirstMissing (letters ++ more) v := by
  obtain ⟨hnone, before, after, rfl, hbefore⟩ := h
  exact ⟨hnone, before, after ++ more, by simp, hbefore⟩

theorem FirstMissing.mem
    (h : values.FirstMissing letters v) :
    v ∈ letters := by
  obtain ⟨_, before, after, rfl, _⟩ := h
  simp

end Valuation

namespace Expr

variable {values : Valuation}

/-- Collecting only adds to what was seen. -/
theorem prefix_lettersAfter
    (seen : List Letter)
    (e : Expr) :
    seen <+: e.lettersAfter seen := by
  induction e generalizing seen with
  | literal n =>
      exact List.prefix_rfl
  | letter v =>
      simp only [lettersAfter]
      split
      · exact List.prefix_rfl
      · exact List.prefix_append seen [v]
  | operation op left right ihL ihR =>
      exact (ihL seen).trans (ihR (left.lettersAfter seen))

/-- A calculation succeeds if all letters have numbers and otherwise reports the first one that
has none, of those that were seen before and those of the expression together. -/
theorem evaluate_cases
    {seen : List Letter}
    (hseen : ∀ w ∈ seen, ∃ n, values w = some n)
    (e : Expr) :
    (∃ n,
      e.evaluate values = .ok n ∧
      ∀ w ∈ e.lettersAfter seen, ∃ m, values w = some m)
      ∨
    ∃ v,
      e.evaluate values = .error (.missingValue v) ∧
      values.FirstMissing (e.lettersAfter seen) v := by
  -- What was seen is general: the right operand is collected after the left one.
  induction e generalizing seen with
  | literal n =>
      exact .inl ⟨n, rfl, hseen⟩
  | letter v =>
      simp only [evaluate, lettersAfter]
      by_cases hv : v ∈ seen
      · obtain ⟨n, hn⟩ := hseen v hv
        rw [if_pos hv, hn]
        exact .inl ⟨n, rfl, hseen⟩
      · rw [if_neg hv]
        cases hvalue : values v with
        | none =>
            exact .inr ⟨v, rfl, hvalue, seen, [], rfl, hseen⟩
        | some n =>
            refine .inl ⟨n, rfl, ?_⟩
            intro w hw
            rcases List.mem_append.1 hw with hold | hnew
            · exact hseen w hold
            · obtain rfl := List.mem_singleton.1 hnew
              exact ⟨n, hvalue⟩
  | operation op left right ihL ihR =>
      simp only [evaluate, lettersAfter]
      rcases ihL hseen with ⟨a, hleft, hcollected⟩ | ⟨v, hleft, hmissing⟩
      · rw [hleft, ok_bind]
        rcases ihR hcollected with ⟨b, hright, hall⟩ | ⟨v, hright, hmissing⟩
        · rw [hright]
          exact .inl ⟨op.apply a b, rfl, hall⟩
        · rw [hright]
          exact .inr ⟨v, rfl, hmissing⟩
      · rw [hleft]
        obtain ⟨more, hmore⟩ := prefix_lettersAfter (left.lettersAfter seen) right
        refine .inr ⟨v, rfl, ?_⟩
        rw [← hmore]
        exact hmissing.append more

theorem evaluate_or_missing
    (values : Valuation)
    (e : Expr) :
    (∃ n, e.evaluate values = .ok n ∧ e.Covered values)
      ∨
    ∃ v, e.evaluate values = .error (.missingValue v) ∧ values.FirstMissing e.letters v := by
  have hseen : ∀ w ∈ ([] : List Letter), ∃ n, values w = some n := by simp
  exact evaluate_cases hseen e

theorem missingValue_of_evaluate
    {e : Expr} {failure : Failure}
    (h : e.evaluate values = .error failure) :
    ∃ v, failure = .missingValue v := by
  rcases evaluate_or_missing values e with ⟨n, hvalue, _⟩ | ⟨v, hfailed, _⟩
  · rw [hvalue] at h
    cases h
  · rw [hfailed] at h
    cases h
    exact ⟨v, rfl⟩

theorem not_covered_of_firstMissing
    {e : Expr} {v : Letter}
    (h : values.FirstMissing e.letters v) :
    ¬ e.Covered values := by
  intro hcovered
  obtain ⟨n, hn⟩ := hcovered v h.mem
  rw [h.1] at hn
  cases hn

/-- An expression has a value exactly if each of its letters has a number; no operand is ever
skipped.  Otherwise the failure names the first of its letters that has none. -/
theorem evaluate_names_first_missing
    (values : Valuation)
    (e : Expr) :
    ((∃ n, e.evaluate values = .ok n) ↔ e.Covered values)
      ∧
    ∀ failure,
      e.evaluate values = .error failure
        ↔
      ∃ v, values.FirstMissing e.letters v ∧ failure = .missingValue v := by
  rcases evaluate_or_missing values e with
    ⟨n, hvalue, hcovered⟩ | ⟨v, hfailed, hmissing⟩
  · refine ⟨iff_of_true ⟨n, hvalue⟩ hcovered, ?_⟩
    intro failure
    rw [hvalue]
    refine iff_of_false (by simp) ?_
    rintro ⟨v, hmissing, _⟩
    exact not_covered_of_firstMissing hmissing hcovered
  · refine ⟨iff_of_false ?_ (not_covered_of_firstMissing hmissing), ?_⟩
    · rw [hfailed]
      simp
    · intro failure
      rw [hfailed, Except.error.injEq]
      constructor
      · rintro rfl
        exact ⟨v, hmissing, rfl⟩
      · rintro ⟨w, hw, rfl⟩
        rw [hmissing.unique hw]

/-- A factor `0` does not spare the calculation of the other factor. -/
example :
    (operation .multiply (literal 0) (letter ⟨'a', by decide⟩)).evaluate Valuation.empty =
      .error (.missingValue ⟨'a', by decide⟩) := by
  rfl

end Expr
end Reckoner
