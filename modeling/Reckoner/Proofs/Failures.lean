import Reckoner.Calculator
import Reckoner.Proofs.Detection
import Reckoner.Proofs.Missing
import Reckoner.Proofs.Nested
import Reckoner.Proofs.Tokens

/-!
# Which stage fails in which way

Every stage between a text and a value has failures of its own.  Reading the tokens of a text
fails for unusable input, reading the expression of a list of tokens for broken grammar, and
calculating for a missing value.  A sequence of stages fails as one of them does.  So no failure
is ever internal, neither of the reader that takes the tokens in one pass nor of the one that
reads group by group and has internal failures at hand.

**Results.**
* `failsAs_bind`: the failures of a sequence.
* `failsAs_ofText`, `failsAs_ofTokens` and `failsAs_evaluate`: the failures of the stages.
* `failures_by_stage`: all stages, and all that is made of them.
-/

namespace Reckoner

section Definitions

/-- The variants of failures.  Unlike the kinds, they tell a missing value from unusable
input. -/
inductive Failure.Variant where
  | input
  | grammar
  | missingValue
  | internal
deriving DecidableEq

def Failure.variant : Failure → Failure.Variant
  | absent | empty | foreign .. | invalidName _ | outOfRange _ | unknownElement _ => .input
  | grammar .. => .grammar
  | missingValue _ => .missingValue
  | unexpectedOperator _ | unexpectedOperand .. | noOperand _ | noOperator _ => .internal

/-- If the outcome is a failure, it is of one of the variants. -/
def FailsAs {α : Type} (variants : List Failure.Variant) (outcome : Except Failure α) : Prop :=
  ∀ failure, outcome = .error failure → failure.variant ∈ variants

end Definitions

section Sequences

variable {α β : Type} {variants others : List Failure.Variant}

theorem failsAs_bind
    {x : Except Failure α} {f : α → Except Failure β}
    (hx : FailsAs variants x)
    (hf : ∀ a, FailsAs others (f a)) :
    FailsAs (variants ++ others) (x >>= f) := by
  intro failure h
  rcases bind_eq_error_iff.1 h with hfirst | ⟨a, _, hsecond⟩
  · exact List.mem_append_left others (hx failure hfirst)
  · exact List.mem_append_right variants (hf a failure hsecond)

theorem failsAs_map
    {x : Except Failure α}
    (hx : FailsAs variants x)
    (f : α → β) :
    FailsAs variants (f <$> x) := by
  intro failure h
  cases x with
  | error other =>
      cases h
      exact hx failure rfl
  | ok a =>
      cases h

end Sequences

section Stages

theorem Token.failsAs_ofText (text : Option String) :
    FailsAs [.input] (Token.ofText text) := by
  intro failure h
  cases text with
  | none =>
      cases h
      exact List.mem_singleton_self _
  | some text =>
      rcases Token.ofText_refuses h with ⟨_, _, rfl | ⟨found, rfl⟩⟩ | ⟨_, run, _, rfl⟩ <;>
        exact List.mem_singleton_self _

theorem Expr.ofTokens_eq_error
    {tokens : List Token} {failure : Failure}
    (h : Expr.ofTokens tokens = .error failure) :
    ∃ fault position, failure = .grammar fault position := by
  rw [Expr.ofTokens_eq_advanceAll, bind_eq_error_iff] at h
  rcases h with hrun | ⟨p, _, hfinish⟩
  · obtain ⟨_, token, _, q, _, _, hstep⟩ := Progress.advanceAll_eq_error hrun
    obtain ⟨fault, position, rfl, _⟩ := Progress.refuse_of_advance_eq_error hstep
    exact ⟨fault, position, rfl⟩
  · obtain ⟨fault, rfl⟩ := Progress.finish_eq_error hfinish
    exact ⟨fault, p.position, rfl⟩

theorem Expr.failsAs_ofTokens (tokens : List Token) :
    FailsAs [.grammar] (Expr.ofTokens tokens) := by
  intro failure h
  obtain ⟨fault, position, rfl⟩ := Expr.ofTokens_eq_error h
  exact List.mem_singleton_self _

theorem Expr.failsAs_evaluate
    (values : Valuation)
    (e : Expr) :
    FailsAs [.missingValue] (e.evaluate values) := by
  intro failure h
  obtain ⟨v, rfl⟩ := Expr.missingValue_of_evaluate h
  exact List.mem_singleton_self _

end Stages

section Together

theorem Expr.failsAs_ofText (text : Option String) :
    FailsAs [.input, .grammar] (Expr.ofText text) := by
  rw [Expr.ofText_eq]
  exact failsAs_bind (Token.failsAs_ofText text) Expr.failsAs_ofTokens

theorem Calculator.failsAs_ofText (text : Option String) :
    FailsAs [.input, .grammar] (Calculator.ofText text) := by
  rw [Calculator.ofText_eq]
  exact failsAs_map (Expr.failsAs_ofText text) Calculator.mk

theorem Calculator.failsAs_replace
    (calculator : Calculator)
    (text : Option String) :
    FailsAs [.input, .grammar] (calculator.replace text).1 := by
  intro failure h
  unfold Calculator.replace at h
  split at h
  next =>
    cases h
  next other hother =>
    cases h
    exact Calculator.failsAs_ofText text failure hother

theorem failsAs_evaluateText
    (text : String)
    (values : Valuation) :
    FailsAs [.input, .grammar, .missingValue] (evaluateText text values) :=
  failsAs_bind (Expr.failsAs_ofText (some text)) (Expr.failsAs_evaluate values)

/-- A text fails to have tokens only as input, tokens fail to be an expression only by the
grammar, and an expression fails to have a value only for a letter without one.  Whatever is made
of these stages fails in these ways alone, never internally; and the reading group by group, which
could, does exactly what the reading in one pass does. -/
theorem failures_by_stage :
    (∀ text, FailsAs [.input] (Token.ofText text))
      ∧
    (∀ tokens, FailsAs [.grammar] (Expr.ofTokens tokens))
      ∧
    (∀ tokens,
      Nested.readTokens tokens = Expr.readTokens tokens ∧
      FailsAs [.grammar] (Nested.readTokens tokens).outcome)
      ∧
    (∀ (e : Expr) values, FailsAs [.missingValue] (e.evaluate values))
      ∧
    (∀ text, FailsAs [.input, .grammar] (Expr.ofText text))
      ∧
    (∀ text values, FailsAs [.input, .grammar, .missingValue] (evaluateText text values))
      ∧
    (∀ text, FailsAs [.input, .grammar] (Calculator.ofText text))
      ∧
    (∀ (calculator : Calculator) text, FailsAs [.input, .grammar] (calculator.replace text).1)
      ∧
    (∀ (calculator : Calculator) values, FailsAs [.missingValue] (calculator.valueUnder values)) := by
  refine
    ⟨Token.failsAs_ofText, Expr.failsAs_ofTokens, ?_,
      fun e values => Expr.failsAs_evaluate values e, Expr.failsAs_ofText,
      failsAs_evaluateText, Calculator.failsAs_ofText, Calculator.failsAs_replace,
      fun calculator values => Expr.failsAs_evaluate values calculator.tree⟩
  intro tokens
  have hreaders : Nested.readTokens tokens = Expr.readTokens tokens := Nested.readTokens_eq tokens
  refine ⟨hreaders, ?_⟩
  rw [hreaders]
  exact Expr.failsAs_ofTokens tokens

end Together

end Reckoner
