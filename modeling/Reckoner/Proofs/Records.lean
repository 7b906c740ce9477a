import Reckoner.Calculator
import Reckoner.Proofs.Acceptance
import Reckoner.Proofs.Detection
import Reckoner.Proofs.Nested
import Reckoner.Proofs.Tokens

/-!
# The records of a reading

What is noted while a text is read can be told from its tokens and the outcome.  The elements come
first.  Then every bracket in front of a certain index has left one record, in the order of the
tokens: the reported index if the tokens were refused, and the end of the tokens otherwise.  The
closing bracket of an empty group is left before the emptiness is reported, and the index reported
is the one behind it; so the rule needs no exception.  Only an accepted text is noted with its
expression.

The records of an accepted text pair off, because the brackets of a phrase do.

**Results.**
* `records_of_rule` and `records_of_refuse`: the records of one step.
* `records_runFrom`: the records of a reading from any progress on.
* `balanced_ofTokens`: the records of a phrase pair off.
* `records_readText`: the records of a text.
-/

namespace Reckoner

open Grammar

namespace Record

section Definitions

/-- What a token at an index leaves behind: a bracket one record, any other token none. -/
def ofToken (i : Nat) : Token → Option Record
  | .opening => some (.entering i)
  | .closing => some (.leaving i)
  | .constant _ | .letter _ | .operator _ => none

/-- One record for every bracket among tokens of which the first one stands at an index. -/
def ofTokens (i : Nat) (tokens : List Token) : List Record :=
  (tokens.zipIdx i).filterMap fun (token, j) => ofToken j token

/-- Records that pair off: each group that was entered is left after all groups inside it. -/
inductive Balanced : List Record → Prop
  | nil :
      Balanced []
  | group
      {i j : Nat} {inner rest : List Record}
      (hinner : Balanced inner)
      (hrest : Balanced rest) :
      Balanced (.entering i :: inner ++ .leaving j :: rest)

end Definitions

section Brackets

@[simp] theorem ofTokens_nil (i : Nat) :
    ofTokens i [] = [] := by
  rfl

theorem ofTokens_cons
    (i : Nat)
    (token : Token)
    (tokens : List Token) :
    ofTokens i (token :: tokens) = ofTokens i [token] ++ ofTokens (i + 1) tokens := by
  cases token <;> rfl

theorem ofTokens_append
    (i : Nat)
    (u v : List Token) :
    ofTokens i (u ++ v) = ofTokens i u ++ ofTokens (i + u.length) v := by
  simp only [ofTokens, List.zipIdx_append, List.filterMap_append]

theorem ofTokens_enclosed
    (i : Nat)
    (w : List Token) :
    ofTokens i (.opening :: w ++ [.closing]) =
      .entering i :: ofTokens (i + 1) w ++ [.leaving (i + 1 + w.length)] := by
  rw [List.cons_append, ofTokens_cons, ofTokens_append]
  rfl

theorem Balanced.append
    {u v : List Record}
    (hu : Balanced u)
    (hv : Balanced v) :
    Balanced (u ++ v) := by
  induction hu with
  | nil =>
      exact hv
  | @group i j inner rest hinner _ _ ih =>
      have hgroup : Balanced (.entering i :: inner ++ .leaving j :: (rest ++ v)) :=
        .group hinner ih
      simpa using hgroup

/-- A phrase closes the brackets that it opens, so its records pair off. -/
theorem balanced_ofTokens
    {phrase : Phrase} {w : List Token} {e : Expr}
    (h : Derives phrase w e)
    (i : Nat) :
    Balanced (ofTokens i w) := by
  induction h generalizing i with
  | ofTerm _ ih | ofFactor _ ih =>
      exact ih i
  | additive _ _ _ ihL ihR | multiply _ _ ihL ihR =>
      rw [ofTokens_append, ofTokens_cons]
      exact (ihL i).append (ihR _)
  | constant _ | letter _ =>
      exact .nil
  | bracket _ ih =>
      rw [ofTokens_enclosed]
      exact .group (ih (i + 1)) .nil

end Brackets

end Record

namespace Progress

open Nested

section Steps

variable {p q : Progress} {token : Token} {fault : Fault} {position : Nat}

/-- A successful step notes its token, if it is a bracket. -/
theorem records_of_rule (h : Advance p token q) :
    (p.step token).records = Record.ofTokens p.position [token]
      ∧
    q.position = p.position + 1 := by
  cases h with
  | opening hroom =>
      refine ⟨?_, rfl⟩
      simp only [step, opening, depth, hroom, if_false]
      rfl
  | constant _ | letter _ | operator _ | closing =>
      exact ⟨rfl, rfl⟩

/-- A refused step notes its token only if the position behind it is reported. -/
theorem records_of_refuse (h : Refuse p token fault position) :
    ∃ k,
      k ≤ 1 ∧
      position = p.position + k ∧
      (p.step token).records = Record.ofTokens p.position ([token].take k) := by
  cases h with
  | emptyGroup =>
      exact ⟨1, Nat.le_refl 1, rfl, rfl⟩
  | constant _ | letter _ | opening | leading _ | unmatchedFirst | unmatched =>
      exact ⟨0, Nat.zero_le 1, rfl, rfl⟩
  | tooDeep hfull =>
      refine ⟨0, Nat.zero_le 1, rfl, ?_⟩
      simp only [step, Progress.opening, depth, hfull, if_true]
      rfl
  | @operator _ _ gap hgap _ | @closing _ _ gap hgap =>
      refine ⟨0, Nat.zero_le 1, rfl, ?_⟩
      cases gap with
      | first =>
          exact absurd rfl hgap
      | term _ _ | factor _ _ =>
          rfl

end Steps

/-- A reading notes the brackets that it has read: all of them if it succeeds, and otherwise those
in front of the reported position. -/
theorem records_runFrom
    (p : Progress)
    (tokens : List Token) :
    (∃ e,
      (runFrom p tokens).outcome = .ok e ∧
      (runFrom p tokens).records = Record.ofTokens p.position tokens)
      ∨
    ∃ fault k,
      (runFrom p tokens).outcome = .error (.grammar fault (p.position + k)) ∧
      k ≤ tokens.length ∧
      (runFrom p tokens).records = Record.ofTokens p.position (tokens.take k) := by
  induction tokens generalizing p with
  | nil =>
      show (∃ e, p.finish = .ok e ∧ _) ∨ ∃ fault k, p.finish = _ ∧ _
      cases hfinish : p.finish with
      | ok e =>
          exact .inl ⟨e, rfl, rfl⟩
      | error failure =>
          obtain ⟨fault, rfl⟩ := finish_eq_error hfinish
          exact .inr ⟨fault, 0, rfl, Nat.le_refl 0, rfl⟩
  | cons token rest ih =>
      rw [runFrom_cons, Logged.outcome_bind]
      cases hstep : (p.step token).outcome with
      | error failure =>
          obtain ⟨fault, position, rfl, hrefuse⟩ := refuse_of_advance_eq_error hstep
          obtain ⟨k, hk, rfl, hrecords⟩ := records_of_refuse hrefuse
          have htake : (token :: rest).take k = [token].take k := by
            rw [← List.singleton_append, List.take_append_of_le_length hk]
          refine .inr ⟨fault, k, rfl, Nat.le_trans hk (Nat.succ_le_succ (Nat.zero_le _)), ?_⟩
          rw [Logged.records_bind_of_error _ hstep, hrecords, htake]
      | ok q =>
          obtain ⟨hrecords, hposition⟩ := records_of_rule (advance_eq_ok_iff.1 hstep)
          rw [Logged.records_bind_of_ok _ hstep, hrecords, ok_bind]
          rcases ih q with ⟨e, houtcome, hrest⟩ | ⟨fault, k, houtcome, hk, hrest⟩
          · refine .inl ⟨e, houtcome, ?_⟩
            rw [hrest, hposition, ← Record.ofTokens_cons]
          · refine .inr ⟨fault, k + 1, ?_, Nat.succ_le_succ hk, ?_⟩
            · rw [houtcome, hposition, Nat.add_assoc, Nat.add_comm 1 k]
            · rw [hrest, hposition, List.take_succ_cons, ← Record.ofTokens_cons]

end Progress

section Texts

variable {text : String}

/-- A text that fails the check leaves no record. -/
theorem Token.records_readText_of_check_eq_error
    {failure : Failure}
    (h : Text.check text = .error failure) :
    (Token.readText (some text)).records = [] := by
  rw [Token.readText, h, Logged.lift_error_bind, Logged.records_fail]

/-- A text that passes the check is noted with its elements, whether they are tokens or not. -/
theorem Token.records_readText_of_check_eq_ok
    (h : Text.check text = .ok ()) :
    (Token.readText (some text)).records = [.split text (Element.split text)] := by
  rw [Token.readText, h, Logged.lift_ok_bind, Logged.records_bind_of_ok _ (Logged.outcome_note _),
    Logged.records_note, Logged.records_lift, List.append_nil]

theorem Token.check_of_ofText
    {tokens : List Token}
    (h : Token.ofText (some text) = .ok tokens) :
    Text.check text = .ok () := by
  rw [Token.ofText_some, bind_eq_ok_iff] at h
  obtain ⟨_, hcheck, _⟩ := h
  exact hcheck

namespace Calculator

/-- A calculator of a text is made from the reading of its tokens and noted after it. -/
theorem readText_eq (text : Option String) :
    readText text =
      Token.readText text >>= fun tokens =>
        Expr.readTokens tokens >>= fun e =>
          Logged.note (.accepted (text.getD "")) >>= fun _ =>
            Logged.note (.tree e) >>= fun _ =>
              pure ⟨e⟩ := by
  rw [readText, Expr.readText, bind_assoc]

variable {tokens : List Token}

theorem ofText_of_tokens
    (htokens : Token.ofText (some text) = .ok tokens) :
    ofText (some text) = Calculator.mk <$> Expr.ofTokens tokens := by
  rw [ofText_eq, Expr.ofText_eq, htokens, ok_bind]

theorem records_readText_of_ok
    {e : Expr}
    (htokens : Token.ofText (some text) = .ok tokens)
    (h : Expr.ofTokens tokens = .ok e) :
    (readText (some text)).records =
      .split text (Element.split text) :: (Expr.readTokens tokens).records ++
        [.accepted text, .tree e] := by
  rw [readText_eq, Logged.records_bind_of_ok _ htokens, Logged.records_bind_of_ok _ h,
    Token.records_readText_of_check_eq_ok (Token.check_of_ofText htokens)]
  rfl

theorem records_readText_of_error
    {failure : Failure}
    (htokens : Token.ofText (some text) = .ok tokens)
    (h : Expr.ofTokens tokens = .error failure) :
    (readText (some text)).records =
      .split text (Element.split text) :: (Expr.readTokens tokens).records := by
  rw [readText_eq, Logged.records_bind_of_ok _ htokens, Logged.records_bind_of_error _ h,
    Token.records_readText_of_check_eq_ok (Token.check_of_ofText htokens)]
  rfl

/-- The records of a text.  One that fails the check leaves none, and one with a number out of
range only its elements.  The tokens of any other text leave one record for each bracket that is
read before the reading ends, in their order.  An accepted text is noted at the end, and the
records of its brackets pair off. -/
theorem records_readText (text : String) :
    (∀ failure,
      Text.check text = .error failure →
      (readText (some text)).records = [])
      ∧
    (∀ failure,
      Text.check text = .ok () →
      Token.ofText (some text) = .error failure →
      (∃ element, failure = .outOfRange element) ∧
      (readText (some text)).records = [.split text (Element.split text)])
      ∧
    ∀ tokens,
      Token.ofText (some text) = .ok tokens →
      (∃ e,
        ofText (some text) = .ok ⟨e⟩ ∧
        (readText (some text)).records =
          .split text (Element.split text) :: Record.ofTokens 0 tokens ++
            [.accepted text, .tree e] ∧
        Record.Balanced (Record.ofTokens 0 tokens))
        ∨
      ∃ fault p,
        ofText (some text) = .error (.grammar fault p) ∧
        p ≤ tokens.length ∧
        (readText (some text)).records =
          .split text (Element.split text) :: Record.ofTokens 0 (tokens.take p) := by
  refine ⟨?_, ?_, ?_⟩
  · intro failure hcheck
    have hrefused : (Token.readText (some text)).outcome = .error failure := by
      rw [Token.readText, hcheck, Logged.lift_error_bind, Logged.outcome_fail]
    rw [readText_eq, Logged.records_bind_of_error _ hrefused,
      Token.records_readText_of_check_eq_error hcheck]
  · intro failure hcheck hrefused
    refine ⟨?_, ?_⟩
    · rcases Token.ofText_refuses hrefused with ⟨_, hother, _⟩ | ⟨_, run, _, rfl⟩
      · rw [hcheck] at hother
        cases hother
      · exact ⟨String.ofList run, rfl⟩
    · rw [readText_eq, Logged.records_bind_of_error _ hrefused,
        Token.records_readText_of_check_eq_ok hcheck]
  · intro tokens htokens
    rcases Progress.records_runFrom .start tokens with
      ⟨e, hread, hrecords⟩ | ⟨fault, p, hread, hp, hrecords⟩
    · have haccepted : Expr.ofTokens tokens = .ok e := hread
      refine .inl ⟨e, ?_, ?_, ?_⟩
      · rw [ofText_of_tokens htokens, haccepted]
        rfl
      · rw [records_readText_of_ok htokens haccepted]
        exact congrArg (fun records => _ :: records ++ _) hrecords
      · exact Record.balanced_ofTokens ((Expr.ofTokens_eq_ok_iff tokens e).1 haccepted).1 0
    · have hposition : Progress.start.position + p = p := Nat.zero_add p
      rw [hposition] at hread
      have hrefused : Expr.ofTokens tokens = .error (.grammar fault p) := hread
      refine .inr ⟨fault, p, ?_, hp, ?_⟩
      · rw [ofText_of_tokens htokens, hrefused]
        rfl
      · rw [records_readText_of_error htokens hrefused]
        exact congrArg (_ :: ·) hrecords

/-- Both brackets of the empty group of `2 * ()` are noted, and after them nothing.  The lines that
`(a)` leaves in a log end with the text and its diagram. -/
theorem records_readText_empty_group :
    (Text.check "2 * ()" = .ok () ∧
      Token.ofText (some "2 * ()") =
        .ok [.constant 2, .operator .multiply, .opening, .closing] ∧
      ofText (some "2 * ()") = .error (.grammar .missingElement 4) ∧
      (readText (some "2 * ()")).records =
        [.split "2 * ()" ["2", "*", "(", ")"], .entering 2, .leaving 3] ∧
      (readText (some "2 * ()")).records.map Record.line =
        ["TRACE Split '2 * ()' into elements [\"2\", \"*\", \"(\", \")\"]",
          "TRACE Entering bracket group at index 2",
          "TRACE Leaving bracket group at index 3"])
      ∧
    (readText (some "(a)")).records.map Record.line =
      ["TRACE Split '(a)' into elements [\"(\", \"a\", \")\"]",
        "TRACE Entering bracket group at index 0",
        "TRACE Leaving bracket group at index 2",
        "DEBUG Registered expression \"(a)\"",
        "DEBUG Expression tree:\nexpression\n└─ a\n"] := by
  have hempty :
      Token.ofText (some "2 * ()") =
        .ok [.constant 2, .operator .multiply, .opening, .closing] := by
    rfl
  have hrefused : ofText (some "2 * ()") = .error (.grammar .missingElement 4) := by
    rfl
  have hgroup : Token.ofText (some "(a)") = .ok [.opening, .letter ⟨'a', rfl⟩, .closing] := by
    rfl
  have haccepted : ofText (some "(a)") = .ok ⟨.letter ⟨'a', rfl⟩⟩ := by
    rfl
  constructor
  · rcases (records_readText "2 * ()").2.2 _ hempty with
      ⟨e, hother, _⟩ | ⟨fault, p, hposition, _, hrecords⟩
    · rw [hrefused] at hother
      cases hother
    · rw [hrefused] at hposition
      cases hposition
      rw [hrecords]
      exact ⟨rfl, hempty, hrefused, rfl, rfl⟩
  · rcases (records_readText "(a)").2.2 _ hgroup with
      ⟨e, htree, hrecords, _⟩ | ⟨fault, p, hother, _⟩
    · rw [haccepted] at htree
      cases htree
      rw [hrecords]
      rfl
    · rw [haccepted] at hother
      cases hother

end Calculator

end Texts

end Reckoner
