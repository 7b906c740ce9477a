import Mathlib.Data.List.Forall2

/-!
# Outcomes in sequence

When a sequence of two stages succeeds, and when it fails; and the same of a stage that is
carried out on every element of a list.
-/

namespace Reckoner

section Outcome

variable {ε α β : Type}

@[simp] theorem ok_bind
    (a : α)
    (f : α → Except ε β) :
    (Except.ok a >>= f) = f a := by
  rfl

@[simp] theorem error_bind
    (failure : ε)
    (f : α → Except ε β) :
    (Except.error failure >>= f) = .error failure := by
  rfl

theorem bind_eq_ok_iff
    {x : Except ε α}
    {f : α → Except ε β}
    {b : β} :
    (x >>= f) = .ok b ↔ ∃ a, x = .ok a ∧ f a = .ok b := by
  cases x with
  | error failure =>
      simp
  | ok a =>
      simp

/-- A sequence fails in the first stage, or in the second one after the first succeeded. -/
theorem bind_eq_error_iff
    {x : Except ε α}
    {f : α → Except ε β}
    {failure : ε} :
    (x >>= f) = .error failure
      ↔
    x = .error failure ∨ ∃ a, x = .ok a ∧ f a = .error failure := by
  cases x with
  | error other =>
      simp
  | ok a =>
      simp

theorem map_eq_ok_iff
    {x : Except ε α}
    {f : α → β}
    {b : β} :
    (f <$> x) = .ok b ↔ ∃ a, x = .ok a ∧ f a = b := by
  cases x with
  | error failure =>
      constructor
      · intro h
        cases h
      · rintro ⟨a, ha, _⟩
        cases ha
  | ok a =>
      constructor
      · intro h
        cases h
        exact ⟨a, rfl, rfl⟩
      · rintro ⟨_, h, rfl⟩
        cases h
        rfl

theorem mapError_eq_ok_iff
    {ε' : Type}
    {x : Except ε α}
    {f : ε → ε'}
    {a : α} :
    x.mapError f = .ok a ↔ x = .ok a := by
  cases x with
  | error failure =>
      simp [Except.mapError]
  | ok b =>
      simp [Except.mapError]

/-- A stage succeeds on a list if it succeeds on every element. -/
theorem mapM_eq_ok_iff
    {f : α → Except ε β}
    {list : List α}
    {results : List β} :
    list.mapM f = .ok results
      ↔
    List.Forall₂ (fun a b => f a = .ok b) list results := by
  induction list generalizing results with
  | nil =>
      rw [List.mapM_nil, List.forall₂_nil_left_iff]
      exact ⟨fun h => (Except.ok.inj h).symm, fun h => h ▸ rfl⟩
  | cons a rest ih =>
      rw [List.mapM_cons, bind_eq_ok_iff, List.forall₂_cons_left_iff]
      constructor
      · rintro ⟨b, hb, h⟩
        obtain ⟨others, hothers, h⟩ := bind_eq_ok_iff.1 h
        cases h
        exact ⟨b, others, hb, ih.1 hothers, rfl⟩
      · rintro ⟨b, others, hb, hothers, rfl⟩
        refine ⟨b, hb, ?_⟩
        rw [ih.2 hothers]
        rfl

/-- A stage fails on a list as it fails on the first element on which it does. -/
theorem mapM_eq_error
    {f : α → Except ε β}
    {list : List α}
    {failure : ε}
    (h : list.mapM f = .error failure) :
    ∃ before a after,
      list = before ++ a :: after ∧
      (∀ other ∈ before, ∃ b, f other = .ok b) ∧
      f a = .error failure := by
  induction list with
  | nil =>
      cases h
  | cons a rest ih =>
      rw [List.mapM_cons, bind_eq_error_iff] at h
      rcases h with hfirst | ⟨b, hb, hrest⟩
      · exact ⟨[], a, rest, rfl, by simp, hfirst⟩
      · rcases bind_eq_error_iff.1 hrest with hrest | ⟨_, _, hdone⟩
        · obtain ⟨before, c, after, rfl, hbefore, hc⟩ := ih hrest
          refine ⟨a :: before, c, after, rfl, ?_, hc⟩
          intro other hother
          rcases List.mem_cons.1 hother with rfl | hmem
          · exact ⟨b, hb⟩
          · exact hbefore other hmem
        · cases hdone

end Outcome

end Reckoner
