import Reckoner.Proofs.Sparing
import Reckoner.Session

/-!
# Normalising

The text of an expression that was read from a text is read as the same expression: its sparing
tokens are nested no deeper than those of the first text, and they are legible because the
constants of a text have no sign.  So writing and reading reach a fixed point at once.

All expressions of a session come from texts.  That is true of a loaded calculator, replacing
an expression either keeps it or takes that of a text, and the other actions only copy
calculators.  Hence normalising leaves every session as it is.

**Results.**
* `ofText_toText`: the expression of a text is also that of its own text.
* `run_invariant`: what every step preserves holds after a run.
* `fromTexts_run`: a run leaves only expressions of texts in the slots.
* `toText_normalises`: normalising succeeds and changes nothing.
-/

namespace Reckoner

open Grammar

namespace Expr

theorem ofText_toText
    {text : String} {e : Expr}
    (h : ofText (some text) = .ok e) :
    ofText (some e.toText) = .ok e := by
  rw [ofText_eq] at h
  obtain ⟨tokens, htokens, hread⟩ := bind_eq_ok_iff.1 h
  have hlegible : Token.Legible e.toTokens :=
    legible_toTokens ((ofTokens_eq_ok_iff tokens e).1 hread).1 (Token.unsigned_of_ofText htokens)
  have hspelled : Token.ofText (some e.toText) = .ok e.toTokens :=
    Token.ofText_spell e.toTokens_ne_nil hlegible
  rw [ofText_eq, hspelled, ok_bind, ofTokens_toTokens_of_ok hread]

end Expr

namespace Calculator

/-- The expression of the calculator is that of a text. -/
def FromText (calculator : Calculator) : Prop :=
  ∃ text, Expr.ofText (some text) = .ok calculator.tree

theorem fromText_of_ofText
    {text : Option String} {calculator : Calculator}
    (h : ofText text = .ok calculator) :
    calculator.FromText := by
  rw [ofText_eq] at h
  obtain ⟨e, hread, rfl⟩ := map_eq_ok_iff.1 h
  cases text with
  | none =>
      cases hread
  | some text =>
      exact ⟨text, hread⟩

theorem fromText_replace
    {calculator : Calculator}
    (h : calculator.FromText)
    (text : Option String) :
    (calculator.replace text).2.FromText := by
  unfold replace
  split
  next other hother =>
    exact fromText_of_ofText hother
  next =>
    exact h

/-- A calculator takes its own text and is not changed by it. -/
theorem replace_toText
    {calculator : Calculator}
    (h : calculator.FromText) :
    calculator.replace (some calculator.tree.toText) = (.ok (), calculator) := by
  obtain ⟨text, htext⟩ := h
  exact replace_of_ofText (Expr.ofText_toText htext) calculator

end Calculator

namespace Session

section Runs

theorem run_invariant
    {P : Session → Prop}
    (hstep : ∀ session step, P session → P (session.perform step).1)
    {session : Session}
    (h : P session)
    (steps : List Step) :
    P (session.run steps).1 := by
  induction steps generalizing session with
  | nil =>
      exact h
  | cons step rest ih =>
      exact ih (hstep session step h)

/-- Putting the calculator of a slot into that slot again changes nothing. -/
theorem insert_eq_self
    {session : Session} {slot : Slot} {calculator : Calculator}
    (h : session slot = some calculator) :
    session.insert slot calculator = session := by
  funext other
  by_cases hother : other = slot
  · rw [hother, insert_self, h]
  · rw [insert_of_ne session calculator hother]

/-- Every calculator of the session holds the expression of a text. -/
def FromTexts (session : Session) : Prop :=
  ∀ slot calculator, session slot = some calculator → calculator.FromText

theorem fromTexts_start : start.FromTexts := by
  intro slot calculator h
  cases h

theorem FromTexts.insert
    {session : Session} {calculator : Calculator}
    (h : session.FromTexts)
    (hcalculator : calculator.FromText)
    (slot : Slot) :
    (session.insert slot calculator).FromTexts := by
  intro other found hfound
  by_cases hother : other = slot
  · rw [hother, insert_self] at hfound
    cases hfound
    exact hcalculator
  · rw [insert_of_ne session calculator hother] at hfound
    exact h other found hfound

theorem fromTexts_load
    {session : Session}
    (h : session.FromTexts)
    (slot : Slot)
    (text : Option String) :
    (session.load slot text).1.FromTexts := by
  unfold load
  split
  next calculator hcalculator =>
    exact h.insert (Calculator.fromText_of_ofText hcalculator) slot
  next =>
    exact h

theorem fromTexts_act
    {session : Session} {calculator : Calculator}
    (h : session.FromTexts)
    (hcalculator : calculator.FromText)
    (slot : Slot)
    (action : Action) :
    (session.act slot calculator action).1.FromTexts := by
  cases action with
  | replace text =>
      exact h.insert (Calculator.fromText_replace hcalculator text) slot
  | normalise =>
      have hafter : calculator.normalise.2.FromText :=
        Calculator.fromText_replace hcalculator _
      simp only [act]
      split
      next hnormalise =>
        rw [hnormalise] at hafter
        exact h.insert hafter slot
      next hnormalise =>
        rw [hnormalise] at hafter
        exact h.insert hafter slot
  | copy target =>
      exact h.insert hcalculator target
  | calculate values =>
      simp only [act]
      split <;> exact h
  | compare other =>
      simp only [act]
      split <;> exact h
  | diagram | inspect | text | letters =>
      exact h

theorem fromTexts_perform
    {session : Session}
    (h : session.FromTexts)
    (step : Step) :
    (session.perform step).1.FromTexts := by
  cases step with
  | load slot text =>
      exact fromTexts_load h slot text
  | act slot action =>
      simp only [perform]
      split
      next calculator hcalculator =>
        exact fromTexts_act h (h slot calculator hcalculator) slot action
      next =>
        exact h

theorem fromTexts_run (steps : List Step) :
    (start.run steps).1.FromTexts :=
  run_invariant (P := FromTexts) (fun _ step h => fromTexts_perform h step) fromTexts_start steps

/-- Normalising the calculator of a slot changes nothing. -/
theorem perform_normalise
    {session : Session} {slot : Slot} {calculator : Calculator}
    (h : session.FromTexts)
    (hslot : session slot = some calculator) :
    session.perform (.act slot .normalise) = (session, .holds calculator.tree) := by
  have hnormalise : calculator.normalise = (.ok (), calculator) :=
    Calculator.replace_toText (h slot calculator hslot)
  simp only [perform, hslot, act, hnormalise, insert_eq_self hslot]

end Runs

/-- The text of an expression that was read is accepted and read as that expression, so that
normalising it a second time changes nothing.  After any run, a calculator takes its own text
and keeps its expression. -/
theorem toText_normalises :
    (∀ text e,
      Expr.ofText (some text) = .ok e →
      Expr.ofText (some e.toText) = .ok e ∧
      Expr.toText <$> Expr.ofText (some e.toText) = .ok e.toText)
      ∧
    (∀ steps slot calculator,
      (start.run steps).1 slot = some calculator →
      calculator.replace (some calculator.tree.toText) = (.ok (), calculator) ∧
      (start.run steps).1.perform (.act slot .normalise) =
        ((start.run steps).1, .holds calculator.tree)) := by
  constructor
  · intro text e h
    have hback : Expr.ofText (some e.toText) = .ok e := Expr.ofText_toText h
    refine ⟨hback, ?_⟩
    rw [hback]
    rfl
  · intro steps slot calculator h
    have hsession : (start.run steps).1.FromTexts := fromTexts_run steps
    constructor
    · exact Calculator.replace_toText (hsession slot calculator h)
    · exact perform_normalise hsession h

/-- Superfluous brackets disappear once. -/
theorem toText_normalises_superfluous_brackets :
    ∃ calculator,
      Expr.ofText (some "((2)) * ((a-1))") = .ok calculator.tree ∧
      (start.run [.load 0 (some "((2)) * ((a-1))")]).1 0 = some calculator ∧
      calculator.tree.toText = "2 * (a - 1)" ∧
      Expr.ofText (some calculator.tree.toText) = .ok calculator.tree ∧
      calculator.replace (some calculator.tree.toText) = (.ok (), calculator) := by
  refine ⟨⟨_⟩, rfl, rfl, rfl, ?_, ?_⟩
  · exact (toText_normalises.1 "((2)) * ((a-1))" _ rfl).1
  · exact (toText_normalises.2 [.load 0 (some "((2)) * ((a-1))")] 0 _ rfl).1

end Session
end Reckoner
