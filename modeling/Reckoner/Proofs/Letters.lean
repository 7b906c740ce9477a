import Reckoner.Expr.Basic

/-!
# The letters of an expression

Which letters are collected from an expression.  They are the letters of its operands: what was
seen before decides only whether a letter is added again.

**Results.**
* `mem_letters_operation`: the letters of an operation are those of its operands.
* `lettersAfter_eq_append`: what is collected after some letters, and in which order.
-/

namespace Reckoner
namespace Expr

/-- Every letter of the expression has a number. -/
def Covered (values : Valuation) (e : Expr) : Prop :=
  ∀ v ∈ e.letters, ∃ n, values v = some n

section Letters

variable {v : Letter} {op : Operator} {left right : Expr}

theorem mem_lettersAfter
    (seen : List Letter)
    (e : Expr) :
    v ∈ e.lettersAfter seen ↔ v ∈ seen ∨ v ∈ e.letters := by
  induction e generalizing seen with
  | literal n =>
      simp [letters, lettersAfter]
  | letter w =>
      by_cases hw : w ∈ seen
      · have hletter : v = w → v ∈ seen := by
          rintro rfl
          exact hw
        simpa [letters, lettersAfter, hw] using hletter
      · simp [letters, lettersAfter, hw]
  | operation op left right ihL ihR =>
      simp only [letters, lettersAfter] at ihL ihR ⊢
      rw [ihR, ihL, ihR (left.lettersAfter []), or_assoc]

theorem mem_letters_operation :
    v ∈ (operation op left right).letters
      ↔
    v ∈ left.letters ∨ v ∈ right.letters :=
  mem_lettersAfter (left.lettersAfter []) right

/-- Letters that were seen before are left out, and the others keep their order. -/
theorem lettersAfter_eq_append
    (seen : List Letter)
    (e : Expr) :
    e.lettersAfter seen = seen ++ e.letters.filter (· ∉ seen) := by
  induction e generalizing seen with
  | literal n =>
      simp [letters, lettersAfter]
  | letter w =>
      by_cases hw : w ∈ seen
      · simp [letters, lettersAfter, hw]
      · simp [letters, lettersAfter, hw]
  | operation op left right ihL ihR =>
      have hright : ∀ v,
          (v ∉ left.lettersAfter seen) ↔ (v ∉ seen ∧ v ∉ left.letters) := by
        intro v
        rw [mem_lettersAfter, not_or]
      calc (operation op left right).lettersAfter seen
          = right.lettersAfter (left.lettersAfter seen) := rfl
        _ = left.lettersAfter seen ++ right.letters.filter (· ∉ left.lettersAfter seen) :=
            ihR (left.lettersAfter seen)
        _ = seen ++ left.letters.filter (· ∉ seen) ++
              right.letters.filter (· ∉ left.lettersAfter seen) := by
            rw [ihL seen]
        _ = seen ++
              (left.letters ++ right.letters.filter (· ∉ left.letters)).filter (· ∉ seen) := by
            simp only [hright, List.append_assoc, List.filter_append, List.filter_filter,
              Bool.decide_and]
        _ = seen ++ (operation op left right).letters.filter (· ∉ seen) := by
            rw [← ihR left.letters]
            rfl

end Letters

section Covered

variable {values : Valuation}

theorem covered_letter {v : Letter} :
    (letter v).Covered values ↔ ∃ n, values v = some n := by
  simp [Covered, letters, lettersAfter]

theorem covered_operation
    {op : Operator} {left right : Expr} :
    (operation op left right).Covered values
      ↔
    left.Covered values ∧ right.Covered values := by
  simp only [Covered, mem_letters_operation, or_imp, forall_and]

end Covered

end Expr
end Reckoner
