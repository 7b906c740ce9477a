import Reckoner.Proofs.Normalising

/-!
# Histories of sessions

What a slot holds can be told from the steps of the session alone: it is the expression of the text
that was last accepted for the slot.  A ledger keeps these texts and never looks into a calculator.
A text that can be read is entered when it is loaded, or when it replaces the text of a slot that
has one; a copy takes over the entry of the slot that is copied.  Nothing else is entered, not even
for normalising, because the text of an expression is read as that expression.

A step either leaves the session as it was, because it failed or because it only reads, or it puts
one calculator into one slot.  `Takes` lists these cases.  So the steps that failed and those that
only read can be struck from a history: all other steps are answered as before, and so is
everything that follows.

**Results.**
* `takes_perform`: what a step can do.
* `accounts_of_takes` and `accounts_run`: a step, and a run, keep the session and the ledger in
  agreement.
* `run_append`: a run in two parts.
* `run_lasting`: a run without the steps that leave no trace.
* `run_holds_accepted`: the law of all runs.
-/

namespace Reckoner
namespace Session

section Definitions

/-- The slot that a step can change.  Steps that only read can change none. -/
def Step.target? : Step → Option Slot
  | .load slot _ | .act slot (.replace _) | .act slot .normalise => some slot
  | .act _ (.copy target) => some target
  | .act _ (.calculate _) | .act _ .diagram | .act _ .inspect | .act _ .text
  | .act _ .letters | .act _ (.compare _) => none

/-- Whether a reply says that the step failed. -/
def Reply.isFailure : Reply → Bool
  | .vacant | .failed _ | .replaced (.error _) _ => true
  | .replaced (.ok _) _ | .holds _ | .value _ | .shown _ | .listed _ | .copied
  | .compared _ => false

/-- What a step can do to a session, and how it is answered. -/
inductive Takes (session : Session) : Step → Session → Reply → Prop
  | vacant
      {slot : Slot} {action : Action}
      (hslot : session slot = none) :
      Takes session (.act slot action) session .vacant
  | read
      {step : Step} {reply : Reply}
      (htarget : step.target? = none) :
      Takes session step session reply
  | load
      {slot : Slot} {text : Option String} {calculator : Calculator}
      (htext : Calculator.ofText text = .ok calculator) :
      Takes session (.load slot text) (session.insert slot calculator) (.holds calculator.tree)
  | loadRefused
      {slot : Slot} {text : Option String} {failure : Failure}
      (htext : Calculator.ofText text = .error failure) :
      Takes session (.load slot text) session (.failed failure)
  | replace
      {slot : Slot} {text : Option String} {old calculator : Calculator}
      (hslot : session slot = some old)
      (htext : Calculator.ofText text = .ok calculator) :
      Takes session (.act slot (.replace text)) (session.insert slot calculator)
        (.replaced (.ok ()) calculator.tree)
  | replaceRefused
      {slot : Slot} {text : Option String} {old : Calculator} {failure : Failure}
      (hslot : session slot = some old)
      (htext : Calculator.ofText text = .error failure) :
      Takes session (.act slot (.replace text)) session (.replaced (.error failure) old.tree)
  | normalise
      {slot : Slot} {old calculator : Calculator}
      (hslot : session slot = some old)
      (htext : Calculator.ofText (some old.tree.toText) = .ok calculator) :
      Takes session (.act slot .normalise) (session.insert slot calculator)
        (.holds calculator.tree)
  | normaliseRefused
      {slot : Slot} {old : Calculator} {failure : Failure}
      (hslot : session slot = some old)
      (htext : Calculator.ofText (some old.tree.toText) = .error failure) :
      Takes session (.act slot .normalise) session (.failed failure)
  | copy
      {slot target : Slot} {calculator : Calculator}
      (hslot : session slot = some calculator) :
      Takes session (.act slot (.copy target)) (session.insert target calculator) .copied

/-- The steps of a run, each with its reply. -/
def transcript (session : Session) (steps : List Step) : List (Step × Reply) :=
  steps.zip (session.run steps).2

/-- Whether a step leaves a trace: it did not fail and does not only read. -/
def lasts (entry : Step × Reply) : Bool :=
  entry.1.target?.isSome && !entry.2.isFailure

/-- The part of a transcript that leaves a trace. -/
def lasting (session : Session) (steps : List Step) : List (Step × Reply) :=
  (session.transcript steps).filter lasts

end Definitions

/-- The text that was last accepted for each slot, when it was loaded or in place of another. -/
abbrev Ledger := Slot → Option String

namespace Ledger

section Definitions

/-- No text has been accepted. -/
def blank : Ledger :=
  fun _ => none

/-- Makes an entry for a slot and leaves the other entries alone. -/
def enter (ledger : Ledger) (slot : Slot) (text : Option String) : Ledger :=
  fun other => if other = slot then text else ledger other

/-- Makes an entry for a slot if the text can be read. -/
def offer (ledger : Ledger) (slot : Slot) (text : Option String) : Ledger :=
  match Expr.ofText text with
  | .ok _ => ledger.enter slot text
  | .error _ => ledger

/-- Notes a step.  No action on a vacant slot is noted. -/
def note (ledger : Ledger) : Step → Ledger
  | .load slot text => ledger.offer slot text
  | .act slot action =>
      match ledger slot with
      | none => ledger
      | some entry =>
          match action with
          | .replace text => ledger.offer slot text
          | .copy target => ledger.enter target (some entry)
          | .calculate _ | .diagram | .inspect | .text | .letters | .normalise
          | .compare _ => ledger

/-- The ledger of a run that begins with vacant slots. -/
def ofSteps (steps : List Step) : Ledger :=
  steps.foldl note blank

end Definitions

section Notes

variable {ledger : Ledger} {slot : Slot} {text : Option String}

theorem offer_of_ok
    {calculator : Calculator}
    (h : Calculator.ofText text = .ok calculator) :
    ledger.offer slot text = ledger.enter slot text := by
  rw [Calculator.ofText_eq, map_eq_ok_iff] at h
  obtain ⟨e, hread, _⟩ := h
  rw [offer, hread]

theorem offer_of_error
    {failure : Failure}
    (h : Calculator.ofText text = .error failure) :
    ledger.offer slot text = ledger := by
  unfold offer
  split
  next e hread =>
    rw [Calculator.ofText_of_ofText hread] at h
    cases h
  next =>
    rfl

theorem note_of_vacant
    (hslot : ledger slot = none)
    (action : Action) :
    ledger.note (.act slot action) = ledger := by
  simp only [note, hslot]

theorem note_of_target?_eq_none
    {step : Step}
    (h : step.target? = none) :
    ledger.note step = ledger := by
  cases step with
  | load slot text =>
      cases h
  | act slot action =>
      cases action with
      | replace _ | normalise | copy _ =>
          cases h
      | calculate _ | diagram | inspect | text | letters | compare _ =>
          simp only [note]
          split <;> rfl

end Notes

end Ledger

section Steps

variable {session after : Session} {step : Step} {reply : Reply}

theorem takes_perform
    (session : Session)
    (step : Step) :
    session.Takes step (session.perform step).1 (session.perform step).2 := by
  cases step with
  | load slot text =>
      simp only [perform, Session.load]
      cases h : Calculator.ofText text with
      | ok calculator =>
          exact .load h
      | error failure =>
          exact .loadRefused h
  | act slot action =>
      simp only [perform]
      cases hslot : session slot with
      | none =>
          exact .vacant hslot
      | some old =>
          cases action with
          | replace text =>
              simp only [act, Calculator.replace]
              cases h : Calculator.ofText text with
              | ok calculator =>
                  exact .replace hslot h
              | error failure =>
                  simp only [insert_eq_self hslot]
                  exact .replaceRefused hslot h
          | normalise =>
              simp only [act, Calculator.normalise, Calculator.replace]
              cases h : Calculator.ofText (some old.tree.toText) with
              | ok calculator =>
                  exact .normalise hslot h
              | error failure =>
                  simp only [insert_eq_self hslot]
                  exact .normaliseRefused hslot h
          | copy target =>
              exact .copy hslot
          | calculate values =>
              simp only [act]
              split <;> exact .read rfl
          | compare other =>
              simp only [act]
              split <;> exact .read rfl
          | diagram | inspect | text | letters =>
              exact .read rfl

/-- A step changes no slot but its target. -/
theorem eq_of_takes
    (h : session.Takes step after reply)
    {slot : Slot}
    (hslot : step.target? ≠ some slot) :
    after slot = session slot := by
  cases h with
  | vacant _ | read _ | loadRefused _ | replaceRefused _ _ | normaliseRefused _ _ =>
      rfl
  | load _ | replace _ _ | normalise _ _ | copy _ =>
      refine insert_of_ne session _ ?_
      rintro rfl
      exact hslot rfl

theorem eq_of_isFailure
    (h : session.Takes step after reply)
    (hreply : reply.isFailure = true) :
    after = session := by
  cases h with
  | vacant _ | read _ | loadRefused _ | replaceRefused _ _ | normaliseRefused _ _ =>
      rfl
  | load _ | replace _ _ | normalise _ _ | copy _ =>
      cases hreply

theorem eq_of_target?_eq_none
    (h : session.Takes step after reply)
    (htarget : step.target? = none) :
    after = session := by
  funext slot
  exact eq_of_takes h (by rw [htarget]; simp)

/-- A step that leaves no trace does not change the session. -/
theorem perform_of_not_lasts
    (h : lasts (step, (session.perform step).2) = false) :
    (session.perform step).1 = session := by
  have htakes := takes_perform session step
  simp only [lasts, Bool.and_eq_false_iff, Option.isSome_eq_false_iff, Option.isNone_iff_eq_none,
    Bool.not_eq_false'] at h
  rcases h with htarget | hfailure
  · exact eq_of_target?_eq_none htakes htarget
  · exact eq_of_isFailure htakes hfailure

end Steps

section Ledgers

/-- What a slot holds is the expression of its entry, and without an entry it is vacant. -/
inductive HoldsText : Option Calculator → Option String → Prop
  | vacant :
      HoldsText none none
  | held
      {text : String} {e : Expr}
      (h : Expr.ofText (some text) = .ok e) :
      HoldsText (some ⟨e⟩) (some text)

/-- The ledger accounts for everything that the session holds. -/
def Accounts (session : Session) (ledger : Ledger) : Prop :=
  ∀ slot, HoldsText (session slot) (ledger slot)

variable {session after : Session} {ledger : Ledger} {step : Step} {reply : Reply}

theorem accounts_start : start.Accounts .blank :=
  fun _ => .vacant

/-- A vacant slot has no entry. -/
theorem Accounts.entry_eq_none
    (h : session.Accounts ledger)
    {slot : Slot}
    (hslot : session slot = none) :
    ledger slot = none := by
  have hheld := h slot
  rw [hslot] at hheld
  cases hentry : ledger slot with
  | none =>
      rfl
  | some text =>
      rw [hentry] at hheld
      cases hheld

/-- A calculator in a slot has an entry. -/
theorem Accounts.entry
    (h : session.Accounts ledger)
    {slot : Slot} {calculator : Calculator}
    (hslot : session slot = some calculator) :
    ∃ text, ledger slot = some text ∧ HoldsText (some calculator) (some text) := by
  have hheld := h slot
  rw [hslot] at hheld
  cases hentry : ledger slot with
  | none =>
      rw [hentry] at hheld
      cases hheld
  | some text =>
      rw [hentry] at hheld
      exact ⟨text, rfl, hheld⟩

theorem Accounts.enter
    (h : session.Accounts ledger)
    {calculator : Calculator} {text : Option String}
    (hcalculator : HoldsText (some calculator) text)
    (slot : Slot) :
    (session.insert slot calculator).Accounts (ledger.enter slot text) := by
  intro other
  simp only [insert, Ledger.enter]
  split
  · exact hcalculator
  · exact h other

theorem holdsText_of_ofText
    {text : Option String} {calculator : Calculator}
    (h : Calculator.ofText text = .ok calculator) :
    HoldsText (some calculator) text := by
  rw [Calculator.ofText_eq] at h
  obtain ⟨e, hread, rfl⟩ := map_eq_ok_iff.1 h
  cases text with
  | none =>
      cases hread
  | some text =>
      exact .held hread

/-- The text of the expression of an entry is read as that expression. -/
theorem HoldsText.eq_of_ofText_toText
    {old calculator : Calculator} {text : Option String}
    (h : HoldsText (some old) text)
    (hread : Calculator.ofText (some old.tree.toText) = .ok calculator) :
    calculator = old := by
  cases h with
  | held htext =>
      have hself := Calculator.ofText_of_ofText (Expr.ofText_toText htext)
      exact Except.ok.inj (hread.symm.trans hself)

/-- A step and its note keep the session and the ledger in agreement. -/
theorem accounts_of_takes
    (haccounts : session.Accounts ledger)
    (h : session.Takes step after reply) :
    after.Accounts (ledger.note step) := by
  cases h with
  | vacant hslot =>
      rwa [Ledger.note_of_vacant (haccounts.entry_eq_none hslot)]
  | read htarget =>
      rwa [Ledger.note_of_target?_eq_none htarget]
  | load htext =>
      rw [Ledger.note, Ledger.offer_of_ok htext]
      exact haccounts.enter (holdsText_of_ofText htext) _
  | loadRefused htext =>
      rwa [Ledger.note, Ledger.offer_of_error htext]
  | replace hslot htext =>
      obtain ⟨text, hentry, _⟩ := haccounts.entry hslot
      simp only [Ledger.note, hentry, Ledger.offer_of_ok htext]
      exact haccounts.enter (holdsText_of_ofText htext) _
  | replaceRefused hslot htext =>
      obtain ⟨text, hentry, _⟩ := haccounts.entry hslot
      simp only [Ledger.note, hentry, Ledger.offer_of_error htext]
      exact haccounts
  | normalise hslot htext =>
      obtain ⟨text, hentry, hheld⟩ := haccounts.entry hslot
      simp only [Ledger.note, hentry, hheld.eq_of_ofText_toText htext, insert_eq_self hslot]
      exact haccounts
  | normaliseRefused hslot htext =>
      obtain ⟨text, hentry, _⟩ := haccounts.entry hslot
      simp only [Ledger.note, hentry]
      exact haccounts
  | copy hslot =>
      obtain ⟨text, hentry, hheld⟩ := haccounts.entry hslot
      simp only [Ledger.note, hentry]
      exact haccounts.enter hheld _

theorem accounts_run
    (haccounts : session.Accounts ledger)
    (steps : List Step) :
    (session.run steps).1.Accounts (steps.foldl Ledger.note ledger) := by
  induction steps generalizing session ledger with
  | nil =>
      exact haccounts
  | cons step rest ih =>
      exact ih (accounts_of_takes haccounts (takes_perform session step))

end Ledgers

section Runs

theorem run_cons
    (session : Session)
    (step : Step)
    (rest : List Step) :
    session.run (step :: rest) =
      (((session.perform step).1.run rest).1,
        (session.perform step).2 :: ((session.perform step).1.run rest).2) := by
  rfl

/-- A run in two parts: the second part begins where the first one ends. -/
theorem run_append
    (session : Session)
    (first second : List Step) :
    session.run (first ++ second) =
      (((session.run first).1.run second).1,
        (session.run first).2 ++ ((session.run first).1.run second).2) := by
  induction first generalizing session with
  | nil =>
      rfl
  | cons step rest ih =>
      rw [List.cons_append, run_cons, run_cons, ih, List.cons_append]

theorem lasting_cons
    (session : Session)
    (step : Step)
    (rest : List Step) :
    session.lasting (step :: rest) =
      if lasts (step, (session.perform step).2) then
        (step, (session.perform step).2) :: (session.perform step).1.lasting rest
      else (session.perform step).1.lasting rest :=
  List.filter_cons

/-- Without the steps that leave no trace, a run ends in the same session and the other steps are
answered as before. -/
theorem run_lasting
    (session : Session)
    (steps : List Step) :
    session.run ((session.lasting steps).map Prod.fst) =
      ((session.run steps).1, (session.lasting steps).map Prod.snd) := by
  induction steps generalizing session with
  | nil =>
      rfl
  | cons step rest ih =>
      rw [lasting_cons]
      cases hlasts : lasts (step, (session.perform step).2) with
      | true =>
          rw [if_pos rfl, List.map_cons, List.map_cons, run_cons, run_cons, ih]
      | false =>
          have hkept := perform_of_not_lasts hlasts
          rw [if_neg (by simp), run_cons, hkept, ih]

end Runs

/-- After any run, each slot holds the expression of the text that was last accepted for it, in
its own place or in the place it was copied from.  No step changes a slot but its target, and one
that fails changes none.  If all steps that fail and all that only read are struck from a run, the
other steps and everything that follows are answered as before. -/
theorem run_holds_accepted :
    (∀ steps slot,
      HoldsText ((start.run steps).1 slot) (Ledger.ofSteps steps slot))
      ∧
    (∀ (session : Session) step slot,
      step.target? ≠ some slot →
      (session.perform step).1 slot = session slot)
      ∧
    (∀ (session : Session) step,
      (session.perform step).2.isFailure = true →
      (session.perform step).1 = session)
      ∧
    ∀ (session : Session) steps later,
      ∃ answers,
        (session.run (steps ++ later)).2 = (session.run steps).2 ++ answers ∧
        session.run ((session.lasting steps).map Prod.fst ++ later) =
          ((session.run (steps ++ later)).1,
            (session.lasting steps).map Prod.snd ++ answers) := by
  refine ⟨?_, ?_, ?_, ?_⟩
  · intro steps slot
    exact accounts_run accounts_start steps slot
  · intro session step slot htarget
    exact eq_of_takes (takes_perform session step) htarget
  · intro session step hfailure
    exact eq_of_isFailure (takes_perform session step) hfailure
  · intro session steps later
    refine ⟨((session.run steps).1.run later).2, ?_, ?_⟩
    · rw [run_append]
    · rw [run_append, run_lasting, run_append]

/-- A copy keeps its expression when the calculator it was copied from takes another text, and a
text that is refused changes nothing. -/
theorem run_holds_accepted_copies :
    ∃ session : Session,
      session = (start.run [.load 0 (some "1+a"), .act 0 (.copy 1)]).1 ∧
      HoldsText (session 1) (some "1+a") ∧
      Step.target? (.act 0 (.replace (some "(2)"))) ≠ some 1 ∧
      (session.perform (.act 0 (.replace (some "(2)")))).1 1 = session 1 ∧
      (session.perform (.act 0 (.replace (some "2*")))).2.isFailure = true ∧
      (session.perform (.act 0 (.replace (some "2*")))).1 = session := by
  refine ⟨_, rfl, ?_, by decide, ?_, rfl, ?_⟩
  · exact run_holds_accepted.1 [.load 0 (some "1+a"), .act 0 (.copy 1)] 1
  · exact run_holds_accepted.2.1 _ (.act 0 (.replace (some "(2)"))) 1 (by decide)
  · exact run_holds_accepted.2.2.1 _ (.act 0 (.replace (some "2*"))) rfl

end Session
end Reckoner
