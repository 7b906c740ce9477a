import Mathlib.Data.Int.ModEq
import Reckoner.Calculator
import Reckoner.Proofs.Letters
import Reckoner.Proofs.Outcome

/-!
# Values modulo `2 ^ 32`

The value of an expression is what exact arithmetic makes of it, brought into the range of the
32-bit integers by a multiple of `2 ^ 32`.  Wrapping an integer respects sums, differences and
products, so it makes no difference whether every operation wraps or only the last result does.
Overflow on the way does no harm as long as the exact value is in range.

**Results.**
* `apply_ofInt`: an operator on wrapped integers is the wrapped operation.
* `evaluate_of_exact`: the value of an expression is its exact value, wrapped.
* `represents_ofInt`: what wrapping makes of an integer.
* `evaluate_exactModulo`: the value of an expression, of a text and of a calculator.
-/

namespace Reckoner

section Definitions

/-- The operator on integers of any size. -/
def Operator.exact : Operator → Int → Int → Int
  | add, a, b => a + b
  | subtract, a, b => a - b
  | multiply, a, b => a * b

namespace Expr

/-- The value of the expression in exact arithmetic, if every letter has a number. -/
def exact (values : Valuation) : Expr → Option Int
  | literal n => some n.toInt
  | letter v => (values v).map Int32.toInt
  | operation op left right => do
      let a ← left.exact values
      let b ← right.exact values
      return op.exact a b

end Expr

/-- The 32-bit number stands for the integer: it is the only integer of its range that is
congruent to it. -/
structure Represents (n : Int32) (z : Int) : Prop where
  lower : -2 ^ 31 ≤ n.toInt
  upper : n.toInt < 2 ^ 31
  congruent : n.toInt ≡ z [ZMOD 2 ^ 32]
  unique : ∀ m : Int, -2 ^ 31 ≤ m → m < 2 ^ 31 → m ≡ z [ZMOD 2 ^ 32] → m = n.toInt

/-- The outcome is a number that stands for the exact value of the expression, and is that value
itself if it is in range. -/
def Expr.ExactModulo (values : Valuation) (e : Expr) (outcome : Except Failure Int32) : Prop :=
  ∃ z n,
    e.exact values = some z ∧
    outcome = .ok n ∧
    Represents n z ∧
    (-2 ^ 31 ≤ z → z < 2 ^ 31 → n.toInt = z)

end Definitions

section Wrapping

/-- Wrapping respects every operator. -/
theorem Operator.apply_ofInt
    (op : Operator)
    (a b : Int) :
    op.apply (Int32.ofInt a) (Int32.ofInt b) = Int32.ofInt (op.exact a b) := by
  cases op with
  | add =>
      exact (Int32.ofInt_add a b).symm
  | subtract =>
      exact (Int32.ofInt_sub a b).symm
  | multiply =>
      exact (Int32.ofInt_mul a b).symm

theorem represents_ofInt (z : Int) :
    Represents (Int32.ofInt z) z := by
  have hcongruent : (Int32.ofInt z).toInt ≡ z [ZMOD 2 ^ 32] := by
    rw [Int32.toInt_ofInt]
    exact Int.bmod_emod
  refine ⟨Int32.le_toInt _, Int32.toInt_lt _, hcongruent, ?_⟩
  intro m hlower hupper hm
  have hsame : m % 2 ^ 32 = (Int32.ofInt z).toInt % 2 ^ 32 := hm.trans hcongruent.symm
  have hlow := Int32.le_toInt (Int32.ofInt z)
  have hhigh := Int32.toInt_lt (Int32.ofInt z)
  -- Two integers of the range differ by less than the modulus.
  omega

/-- An integer in range stands for itself. -/
theorem Represents.eq_of_fits
    {n : Int32} {z : Int}
    (h : Represents n z)
    (hlower : -2 ^ 31 ≤ z)
    (hupper : z < 2 ^ 31) :
    n.toInt = z :=
  (h.unique z hlower hupper rfl).symm

end Wrapping

namespace Expr

section Values

variable {values : Valuation} {e : Expr}

theorem exact_of_covered
    (h : e.Covered values) :
    ∃ z, e.exact values = some z := by
  induction e with
  | literal n =>
      exact ⟨n.toInt, rfl⟩
  | letter v =>
      obtain ⟨n, hn⟩ := covered_letter.1 h
      exact ⟨n.toInt, by rw [exact, hn, Option.map_some]⟩
  | operation op left right ihL ihR =>
      obtain ⟨hleft, hright⟩ := covered_operation.1 h
      obtain ⟨a, ha⟩ := ihL hleft
      obtain ⟨b, hb⟩ := ihR hright
      exact ⟨op.exact a b, by rw [exact, ha, hb]; rfl⟩

/-- The value of an expression is its exact value, wrapped once. -/
theorem evaluate_of_exact
    {z : Int}
    (h : e.exact values = some z) :
    e.evaluate values = .ok (Int32.ofInt z) := by
  induction e generalizing z with
  | literal n =>
      cases h
      rw [evaluate, Int32.ofInt_toInt]
  | letter v =>
      obtain ⟨n, hn, rfl⟩ := Option.map_eq_some_iff.1 h
      simp only [evaluate, hn, Int32.ofInt_toInt]
  | operation op left right ihL ihR =>
      obtain ⟨a, ha, h⟩ := Option.bind_eq_some_iff.1 h
      obtain ⟨b, hb, h⟩ := Option.bind_eq_some_iff.1 h
      cases h
      rw [evaluate, ihL ha, ok_bind, ihR hb, ok_bind, op.apply_ofInt]
      rfl

theorem exactModulo_evaluate
    (h : e.Covered values) :
    e.ExactModulo values (e.evaluate values) := by
  obtain ⟨z, hz⟩ := exact_of_covered h
  have hrepresents : Represents (Int32.ofInt z) z := represents_ofInt z
  exact ⟨z, Int32.ofInt z, hz, evaluate_of_exact hz, hrepresents, hrepresents.eq_of_fits⟩

end Values

end Expr

/-- Calculation is exact modulo `2 ^ 32`: of an expression whose letters all have numbers, of a
text that is read as such an expression, and of a calculator that was made from the text or took
it over. -/
theorem evaluate_exactModulo (values : Valuation) :
    (∀ e : Expr, e.Covered values → e.ExactModulo values (e.evaluate values))
      ∧
    ∀ text e,
      Expr.ofText (some text) = .ok e →
      e.Covered values →
      e.ExactModulo values (evaluateText text values)
        ∧
      (∃ calculator,
        Calculator.ofText (some text) = .ok calculator ∧
        e.ExactModulo values (calculator.valueUnder values))
        ∧
      ∀ calculator : Calculator, ∃ after,
        calculator.replace (some text) = (.ok (), after) ∧
        e.ExactModulo values (after.valueUnder values) := by
  constructor
  · intro e hcovered
    exact Expr.exactModulo_evaluate hcovered
  · intro text e htext hcovered
    have hvalue : e.ExactModulo values (e.evaluate values) := Expr.exactModulo_evaluate hcovered
    refine ⟨?_, ⟨⟨e⟩, Calculator.ofText_of_ofText htext, hvalue⟩, ?_⟩
    · rwa [evaluateText_of_ofText htext]
    · intro calculator
      exact ⟨⟨e⟩, Calculator.replace_of_ofText htext calculator, hvalue⟩

/-- The sum leaves the range and the difference comes back to it. -/
theorem evaluate_exactModulo_overflow :
    ∃ e n,
      Expr.ofText (some "a + 2147483647 - 2147483647") = .ok e ∧
      e.Covered (fun _ => some 5) ∧
      e.exact (fun _ => some 5) = some 5 ∧
      evaluateText "a + 2147483647 - 2147483647" (fun _ => some 5) = .ok n ∧
      n.toInt = 5 := by
  obtain ⟨e, htext, hexact⟩ :
      ∃ e,
        Expr.ofText (some "a + 2147483647 - 2147483647") = .ok e ∧
        e.exact (fun _ => some 5) = some 5 :=
    ⟨_, rfl, rfl⟩
  have hcovered : e.Covered (fun _ => some 5) := fun _ _ => ⟨5, rfl⟩
  obtain ⟨⟨z, n, hz, hvalue, _, hfits⟩, _⟩ :=
    (evaluate_exactModulo fun _ => some 5).2 _ e htext hcovered
  obtain rfl : z = 5 := Option.some.inj (hz.symm.trans hexact)
  exact ⟨e, n, htext, hcovered, hexact, hvalue, hfits (by decide) (by decide)⟩

end Reckoner
