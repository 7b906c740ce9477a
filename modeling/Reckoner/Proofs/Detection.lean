import Reckoner.Proofs.Spelled

/-!
# Where a fault is detected

A beginning of a token list is viable if it can be continued to a list that the reader accepts,
and doomed if every continuation of it is refused in the same way.  Whatever the reader has read
without failure is viable: a missing operand can be supplied by a constant and the open brackets
can be closed, which needs no further level.  A step that fails does so whatever comes after it.
So the reader reports a fault at the first token that spoils the list.

Only the closing bracket of an empty group is reported late, at the position after it.

**Results.**
* `viable_of_advanceAll`: what has been read without failure is viable.
* `ofTokens_error_detected`: the three places at which a fault is detected.
-/

namespace Reckoner

open Grammar

section Completion

namespace Progress

/-- A completed operand is an expression once the open brackets are closed. -/
theorem exists_closing
    (position : Nat)
    (outer : List Gap)
    (run : Run) :
    ∃ rest e,
      (advanceAll ⟨position, outer, .complete run⟩ rest >>= finish) = .ok e := by
  induction outer generalizing position run with
  | nil =>
      exact ⟨[], run.total, rfl⟩
  | cons gap outer ih =>
      obtain ⟨rest, e, hrest⟩ := ih (position + 1) (gap.fill run.total)
      refine ⟨.closing :: rest, e, ?_⟩
      rw [advanceAll_cons_of_rule .closing, hrest]

/-- Every progress can be completed to an expression. -/
theorem exists_completion (p : Progress) :
    ∃ rest e, (p.advanceAll rest >>= finish) = .ok e := by
  obtain ⟨position, outer, group⟩ := p
  cases group with
  | waiting gap =>
      obtain ⟨rest, e, hrest⟩ :=
        exists_closing (position + 1) outer (gap.fill (.literal 0))
      refine ⟨.constant 0 :: rest, e, ?_⟩
      rw [advanceAll_cons_of_rule (.constant 0), hrest]
  | complete run =>
      exact exists_closing position outer run

theorem finish_eq_error
    {p : Progress} {failure : Failure}
    (h : p.finish = .error failure) :
    ∃ fault, failure = .grammar fault p.position := by
  obtain ⟨position, outer, group⟩ := p
  cases group with
  | waiting gap =>
      cases gap <;> (cases h; exact ⟨_, rfl⟩)
  | complete run =>
      cases outer with
      | nil =>
          cases h
      | cons gap outer =>
          cases h
          exact ⟨_, rfl⟩

/-- A group in brackets of which nothing has been read was opened by the last token. -/
theorem Spelled.ends_with_opening
    {p : Progress} {w : List Token}
    (h : p.Spelled w)
    (hgroup : p.group = .waiting .first)
    (houter : p.outer ≠ []) :
    ∃ u, w = u ++ [.opening] := by
  obtain ⟨hspelled, hinner, _⟩ := h
  cases hinner with
  | complete _ =>
      cases hgroup
  | waiting hgap =>
      cases hgroup
      cases hgap
      cases hspelled with
      | nil =>
          exact absurd rfl houter
      | @cons _ _ u v _ _ =>
          exact ⟨u ++ v, by simp⟩

end Progress

end Completion

namespace Grammar

section Detection

open Reckoner.Expr Progress

/-- Some continuation of the tokens is accepted. -/
def Viable (w : List Token) : Prop :=
  ∃ rest e, ofTokens (w ++ rest) = .ok e

/-- Every continuation of the tokens is refused for the same reason. -/
def Doomed (w : List Token) (failure : Failure) : Prop :=
  ∀ rest, ofTokens (w ++ rest) = .error failure

/-- The token at the position spoils a viable beginning. -/
def DetectedAtToken (w : List Token) (failure : Failure) (p : Nat) : Prop :=
  p < w.length ∧ Viable (w.take p) ∧ Doomed (w.take (p + 1)) failure

/-- Nothing is wrong but that the tokens end. -/
def DetectedAtEnd (w : List Token) (p : Nat) : Prop :=
  p = w.length ∧ Viable w

/-- The bracket before the position closes an empty group and spoils a viable beginning. -/
def DetectedAfterEmptyGroup (w : List Token) (failure : Failure) (p : Nat) : Prop :=
  2 ≤ p ∧ w[p - 2]? = some .opening ∧ w[p - 1]? = some .closing ∧
    Viable (w.take (p - 1)) ∧ Doomed (w.take p) failure

theorem viable_of_advanceAll
    {w : List Token} {p : Progress}
    (h : start.advanceAll w = .ok p) :
    Viable w := by
  obtain ⟨rest, e, hrest⟩ := p.exists_completion
  refine ⟨rest, e, ?_⟩
  rw [ofTokens_append_of_ok h, hrest]

theorem doomed_of_advanceAll
    {w : List Token} {failure : Failure}
    (h : start.advanceAll w = .error failure) :
    Doomed w failure :=
  ofTokens_append_of_error h

theorem Viable.not_doomed
    {w : List Token}
    (h : Viable w)
    (failure : Failure) :
    ¬ Doomed w failure := by
  intro hdoomed
  obtain ⟨rest, e, haccepted⟩ := h
  rw [hdoomed rest] at haccepted
  cases haccepted

variable {w : List Token} {failure : Failure} {p : Nat}

theorem DetectedAtToken.not_atEnd
    (h : DetectedAtToken w failure p) :
    ¬ DetectedAtEnd w p := by
  rintro ⟨rfl, _⟩
  exact Nat.lt_irrefl _ h.1

theorem DetectedAtToken.not_afterEmptyGroup
    (h : DetectedAtToken w failure p) :
    ¬ DetectedAfterEmptyGroup w failure p := by
  rintro ⟨_, _, _, _, hdoomed⟩
  exact h.2.1.not_doomed failure hdoomed

theorem DetectedAtEnd.not_afterEmptyGroup
    (h : DetectedAtEnd w p) :
    ¬ DetectedAfterEmptyGroup w failure p := by
  rintro ⟨_, _, _, _, hdoomed⟩
  obtain ⟨rfl, hviable⟩ := h
  rw [List.take_length] at hdoomed
  exact hviable.not_doomed failure hdoomed

/-- A failed step is detected at its token or, after an empty group, behind it. -/
theorem detected_of_step
    {u v : List Token} {token : Token} {q : Progress}
    (hrun : start.advanceAll u = .ok q)
    (hstep : q.advance token = .error failure) :
    ∃ fault p,
      failure = .grammar fault p ∧ p ≤ (u ++ token :: v).length ∧
        (DetectedAtToken (u ++ token :: v) failure p ∨
          DetectedAfterEmptyGroup (u ++ token :: v) failure p) := by
  have hspelled := spelled_of_advanceAll spelled_start hrun
  have hposition : q.position = u.length := hspelled.position_eq
  have hviable := viable_of_advanceAll hrun
  have hdoomed : Doomed (u ++ [token]) failure := by
    apply doomed_of_advanceAll
    rw [advanceAll_append_of_ok hrun, advanceAll_cons, hstep, error_bind]
  have htake : (u ++ token :: v).take (u.length + 1) = u ++ [token] := by
    rw [List.take_append, List.take_of_length_le (Nat.le_succ _)]
    simp
  rcases advance_eq_error hstep with ⟨fault, rfl⟩ | ⟨rfl, hgroup, houter, rfl⟩
  · refine ⟨fault, u.length, by rw [hposition], by simp, .inl ⟨by simp, ?_, ?_⟩⟩
    · simpa using hviable
    · rwa [htake]
  · obtain ⟨t, rfl⟩ := hspelled.ends_with_opening hgroup houter
    refine
      ⟨.missingElement, (t ++ [Token.opening]).length + 1, by rw [hposition], ?_,
        .inr ⟨by simp, by simp, by simp, ?_, ?_⟩⟩
    · simp only [List.length_append, List.length_cons]
      omega
    · rwa [Nat.add_sub_cancel, List.take_left]
    · rwa [htake]

/-- A refused list is refused at one of three places, and only one: at the first token that
spoils it, at its end if nothing else is wrong, or behind an empty group. -/
theorem ofTokens_error_detected
    (h : ofTokens w = .error failure) :
    ∃ fault p,
      failure = .grammar fault p ∧ p ≤ w.length ∧
        ((DetectedAtToken w failure p ∧
            ¬ DetectedAtEnd w p ∧
            ¬ DetectedAfterEmptyGroup w failure p)
          ∨
        (¬ DetectedAtToken w failure p ∧
            DetectedAtEnd w p ∧
            ¬ DetectedAfterEmptyGroup w failure p)
          ∨
        (¬ DetectedAtToken w failure p ∧
            ¬ DetectedAtEnd w p ∧
            DetectedAfterEmptyGroup w failure p)) := by
  rw [ofTokens_eq_advanceAll, bind_eq_error_iff] at h
  rcases h with hrun | ⟨q, hrun, hfinish⟩
  · obtain ⟨u, token, v, q, rfl, hu, hstep⟩ := advanceAll_eq_error hrun
    obtain ⟨fault, p, hfailure, hp, htoken | hgroup⟩ := detected_of_step hu hstep
    · exact
        ⟨fault, p, hfailure, hp,
          .inl ⟨htoken, htoken.not_atEnd, htoken.not_afterEmptyGroup⟩⟩
    · refine ⟨fault, p, hfailure, hp, .inr (.inr ⟨?_, ?_, hgroup⟩)⟩
      · exact fun htoken => htoken.not_afterEmptyGroup hgroup
      · exact fun hend => hend.not_afterEmptyGroup hgroup
  · obtain ⟨fault, rfl⟩ := finish_eq_error hfinish
    have hposition : q.position = w.length :=
      (spelled_of_advanceAll spelled_start hrun).position_eq
    have hend : DetectedAtEnd w q.position := ⟨hposition, viable_of_advanceAll hrun⟩
    refine
      ⟨fault, q.position, rfl, Nat.le_of_eq hposition,
        .inr (.inl ⟨?_, hend, hend.not_afterEmptyGroup⟩)⟩
    exact fun htoken => htoken.not_atEnd hend

/-- The empty group of `2 * ( )` is detected behind its closing bracket. -/
theorem ofTokens_error_detected_empty_group :
    ofTokens [.constant 2, .operator .multiply, .opening, .closing] =
        .error (.grammar .missingElement 4)
      ∧
    DetectedAfterEmptyGroup [.constant 2, .operator .multiply, .opening, .closing]
      (.grammar .missingElement 4) 4 := by
  have h :
      ofTokens [.constant 2, .operator .multiply, .opening, .closing] =
        .error (.grammar .missingElement 4) := by
    rfl
  refine ⟨h, ?_⟩
  obtain ⟨fault, p, hfailure, _, htoken | hend | hgroup⟩ := ofTokens_error_detected h
  · cases hfailure
    exact absurd htoken.1.1 (by decide)
  · cases hfailure
    obtain ⟨rest, e, haccepted⟩ := hend.2.1.2
    cases haccepted
  · cases hfailure
    exact hgroup.2.2

end Detection

end Grammar
end Reckoner
