import Mathlib.Data.List.Induction
import Reckoner.Proofs.Letters

/-!
# The last setting of each letter

Letters are set one after another, and a later setting of a letter replaces the earlier ones.  So a
valuation is known by the last setting of each letter, and an expression asks it for no other
letters than its own.  Two lists of settings are as good as each other for an expression if the last
setting of each of its letters is the same in both of them.

**Results.**
* `ofPairs_eq_last?`: the valuation of a list of settings.
* `last?_insert`: what one more setting in a list changes.
* `last?_of_overridden`, `last?_of_repeated`, `last?_of_ne`: settings that change nothing.
* `evaluate_congr`: only the letters of an expression play a part in its value.
-/

namespace Reckoner

namespace Valuation

variable {before after pairs : List (Letter × Int32)} {v w : Letter} {n : Int32}

/-- The number in the last setting of a letter, if the letter is set at all. -/
def last? (pairs : List (Letter × Int32)) (v : Letter) : Option Int32 :=
  (pairs.reverse.find? fun pair => pair.1 = v).map (·.2)

theorem last?_append (before after : List (Letter × Int32)) (v : Letter) :
    last? (before ++ after) v = (last? after v).or (last? before v) := by
  simp [last?, List.find?_append, Option.map_or]

/-- Setting letters one after another leaves each of them with its last setting. -/
theorem ofPairs_eq_last? (pairs : List (Letter × Int32)) :
    ofPairs pairs = last? pairs := by
  induction pairs using List.reverseRecOn with
  | nil =>
      rfl
  | append_singleton before pair ih =>
      obtain ⟨v, n⟩ := pair
      funext w
      rw [ofPairs_concat, last?_append, ← ih]
      by_cases hw : w = v
      · simp [hw, last?]
      · rw [insert_of_ne _ _ hw]
        simp [last?, Ne.symm hw]

theorem exists_last?_of_mem
    (h : (v, n) ∈ pairs) :
    ∃ m, last? pairs v = some m := by
  rw [← Option.isSome_iff_exists, last?, Option.isSome_map, List.find?_isSome]
  exact ⟨(v, n), List.mem_reverse.2 h, by simp⟩

/-- The other letters play no part in the last setting of a letter. -/
theorem last?_filter (pairs : List (Letter × Int32)) (v : Letter) :
    last? (pairs.filter fun pair => pair.1 = v) v = last? pairs v := by
  rw [last?, last?, ← List.filter_reverse, List.find?_filter]
  simp

/-- One more setting counts only for its letter, and only if that is not set again. -/
theorem last?_insert (before after : List (Letter × Int32)) (v w : Letter) (n : Int32) :
    last? (before ++ (v, n) :: after) w =
      (last? after w).or ((if w = v then some n else none).or (last? before w)) := by
  have hsingle : last? [(v, n)] w = if w = v then some n else none := by
    by_cases hw : w = v
    · simp [last?, hw]
    · simp [last?, hw, Ne.symm hw]
  rw [← List.singleton_append, last?_append, last?_append, hsingle, Option.or_assoc]

/-- A setting changes nothing if the letter is set again behind it. -/
theorem last?_of_overridden
    {m : Int32}
    (h : (v, m) ∈ after) :
    last? (before ++ (v, n) :: after) = last? (before ++ after) := by
  funext w
  rw [last?_insert, last?_append]
  by_cases hw : w = v
  · obtain ⟨k, hk⟩ := exists_last?_of_mem h
    rw [hw, hk, Option.some_or, Option.some_or]
  · rw [if_neg hw, Option.none_or]

/-- A setting changes nothing if it repeats the one before. -/
theorem last?_of_repeated
    (h : last? before v = some n) :
    last? (before ++ (v, n) :: after) = last? (before ++ after) := by
  funext w
  rw [last?_insert, last?_append]
  by_cases hw : w = v
  · rw [if_pos hw, hw, h, Option.some_or]
  · rw [if_neg hw, Option.none_or]

/-- A setting changes nothing for the other letters. -/
theorem last?_of_ne
    (h : w ≠ v)
    (before after : List (Letter × Int32))
    (n : Int32) :
    last? (before ++ (v, n) :: after) w = last? (before ++ after) w := by
  rw [last?_insert, last?_append, if_neg h, Option.none_or]

end Valuation

namespace Expr

/-- Only the letters of an expression play a part in its value, or in the failure to have one. -/
theorem evaluate_congr
    {values others : Valuation} {e : Expr}
    (h : ∀ v ∈ e.letters, values v = others v) :
    e.evaluate values = e.evaluate others := by
  induction e with
  | literal n =>
      rfl
  | letter v =>
      have hv : values v = others v := h v (by simp [letters, lettersAfter])
      simp only [evaluate, hv]
  | operation op left right ihL ihR =>
      have hleft := ihL fun v hv => h v (mem_letters_operation.2 (.inl hv))
      have hright := ihR fun v hv => h v (mem_letters_operation.2 (.inr hv))
      simp only [evaluate, hleft, hright]

end Expr

end Reckoner
