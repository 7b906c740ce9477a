import Reckoner.Proofs.Nested

/-!
# A flat scan of the tokens

Whether a token list is an expression, and if not, what is wrong with it and where, can be told
without building anything.  A scan from left to right need only remember what kind of token came
last and how many brackets are open.  Its first report is the failure of the reader, word for
word and at the same position.

What the scan remembers is a view of the progress of the reader: the gaps and the expressions
in them are forgotten, only their kind and number are kept.  A step of the reader is a step of
the scan under this view, and so is a run.

**Results.**
* `scan_of_rule` and `objection_of_refuse`: the scan follows every step of the reader.
* `agrees_of_run`: so it follows every run, to the same report.
* `ofTokens_agrees_with_scan`: the reader, and the one that reads group by group, fail exactly as the
  scan reports.
-/

namespace Reckoner
namespace Grammar

section Definitions

/-- What the scan tells apart in the token before. -/
inductive Previous where
  /-- There is none. -/
  | start
  | opening
  /-- A constant, a letter or a closing bracket. -/
  | operand
  | additive
  | product
deriving DecidableEq

/-- What the scan remembers: the kind of the token before and the number of open brackets. -/
structure Scan where
  previous : Previous
  opened : Nat
deriving DecidableEq

/-- What the scan finds fault with, and at which index. -/
structure Report where
  text : String
  position : Nat
deriving DecidableEq

namespace Scan

def start : Scan :=
  ⟨.start, 0⟩

/-- What is wrong with a token at an index. -/
def objection (scan : Scan) (i : Nat) : Token → Option Report
  | .constant _ | .letter _ =>
      if scan.previous = .operand then some ⟨"Missing operator, found scalar after scalar", i⟩
      else none
  | .opening =>
      if scan.previous = .operand then some ⟨"Missing operator, found scalar after scalar", i⟩
      else if scan.opened = 256 then some ⟨"Brackets nested deeper than 256 levels", i⟩
      else none
  | .operator _ =>
      match scan.previous with
      | .start | .opening => some ⟨"First element of expression cannot be an operator", i⟩
      | .additive | .product => some ⟨"Missing scalar, found operator after operator", i⟩
      | .operand => none
  | .closing =>
      if scan.previous = .additive ∨ scan.previous = .product then
        some ⟨"Missing scalar, found operator after operator", i⟩
      else if scan.opened = 0 then some ⟨"Unexpected closing bracket", i⟩
      else if scan.previous = .opening then some ⟨"Missing element in expression", i + 1⟩
      else none

/-- What is remembered after a token. -/
def after (scan : Scan) : Token → Scan
  | .constant _ | .letter _ => ⟨.operand, scan.opened⟩
  | .operator .add | .operator .subtract => ⟨.additive, scan.opened⟩
  | .operator .multiply => ⟨.product, scan.opened⟩
  | .opening => ⟨.opening, scan.opened + 1⟩
  | .closing => ⟨.operand, scan.opened - 1⟩

/-- What is wrong with the tokens ending at an index. -/
def objectionAtEnd (scan : Scan) (n : Nat) : Option Report :=
  match scan.previous with
  | .product => some ⟨"Missing scalar at the end of the expression", n⟩
  | .additive | .opening | .start => some ⟨"Missing element in expression", n⟩
  | .operand => if scan.opened = 0 then none else some ⟨"Missing closing bracket", n⟩

/-- The first report on tokens of which the first one stands at an index. -/
def firstReport (scan : Scan) (i : Nat) : List Token → Option Report
  | [] => scan.objectionAtEnd i
  | token :: rest =>
      match scan.objection i token with
      | some report => some report
      | none => (scan.after token).firstReport (i + 1) rest

end Scan

/-- An outcome agrees with a report if it is a failure of that wording and position, and with
no report if it is no failure. -/
inductive Agrees {α : Type} : Except Failure α → Option Report → Prop
  | accepted (a : α) :
      Agrees (.ok a) none
  | refused (fault : Fault) (position : Nat) :
      Agrees (.error (.grammar fault position)) (some ⟨fault.message, position⟩)

end Definitions

theorem Fault.message_tooDeep :
    tooDeep.message = "Brackets nested deeper than 256 levels" := by
  decide

theorem Agrees.none_iff
    {α : Type} {x : Except Failure α} {report : Option Report}
    (h : Agrees x report) :
    report = none ↔ ∃ a, x = .ok a := by
  cases h <;> simp

theorem Agrees.some_iff
    {α : Type} {x : Except Failure α} {report : Option Report}
    (h : Agrees x report)
    (text : String)
    (position : Nat) :
    report = some ⟨text, position⟩
      ↔
    ∃ fault, fault.message = text ∧ x = .error (.grammar fault position) := by
  cases h with
  | accepted _ =>
      simp
  | refused fault i =>
      constructor
      · rintro ⟨⟩
        exact ⟨fault, rfl, rfl⟩
      · rintro ⟨_, rfl, ⟨⟩⟩
        rfl

end Grammar

namespace Progress

open Grammar

section View

/-- What the scan would remember of the tokens read so far. -/
def scan (p : Progress) : Scan where
  previous :=
    match p.group, p.outer with
    | .waiting .first, [] => .start
    | .waiting .first, _ :: _ => .opening
    | .waiting (.term ..), _ => .additive
    | .waiting (.factor ..), _ => .product
    | .complete _, _ => .operand
  opened := p.depth

theorem scan_waiting_ne_operand
    {position : Nat} {outer : List Gap} {gap : Gap} :
    (scan ⟨position, outer, .waiting gap⟩).previous ≠ .operand := by
  cases gap <;> cases outer <;> simp [scan]

theorem scan_of_rule
    {p q : Progress} {token : Token}
    (h : Advance p token q) :
    p.scan.objection p.position token = none
      ∧
    q.scan = p.scan.after token
      ∧
    q.position = p.position + 1 := by
  cases h with
  | constant _ | letter _ =>
      exact ⟨if_neg scan_waiting_ne_operand, rfl, rfl⟩
  | operator op =>
      cases op <;> exact ⟨rfl, rfl, rfl⟩
  | opening hroom =>
      exact ⟨(if_neg scan_waiting_ne_operand).trans (if_neg hroom), rfl, rfl⟩
  | closing =>
      exact ⟨rfl, rfl, rfl⟩

theorem objection_of_refuse
    {p : Progress} {token : Token} {fault : Fault} {position : Nat}
    (h : Refuse p token fault position) :
    p.scan.objection p.position token = some ⟨fault.message, position⟩ := by
  cases h with
  | constant _ | letter _ | opening | unmatchedFirst | unmatched | emptyGroup =>
      rfl
  | tooDeep hfull =>
      rw [Fault.message_tooDeep]
      exact (if_neg scan_waiting_ne_operand).trans (if_pos hfull)
  | @leading _ outer _ =>
      cases outer <;> rfl
  | @operator _ _ gap hgap _ | @closing _ _ gap hgap =>
      cases gap with
      | first =>
          exact absurd rfl hgap
      | term _ _ | factor _ _ =>
          rfl

theorem agrees_of_finish (p : Progress) :
    Agrees p.finish (p.scan.objectionAtEnd p.position) := by
  obtain ⟨position, outer, group⟩ := p
  cases group with
  | waiting gap =>
      cases gap <;> cases outer <;> exact .refused _ position
  | complete run =>
      cases outer with
      | nil =>
          exact .accepted run.total
      | cons gap outer =>
          exact .refused .missingClosing position

end View

/-- The scan follows a run of the reader from any progress to the same report. -/
theorem agrees_of_run
    (p : Progress)
    (tokens : List Token) :
    Agrees (p.advanceAll tokens >>= finish) (p.scan.firstReport p.position tokens) := by
  -- The progress is general: the view of it is all that the scan knows.
  induction tokens generalizing p with
  | nil =>
      exact agrees_of_finish p
  | cons token rest ih =>
      rw [advanceAll_cons, Scan.firstReport]
      cases hstep : p.advance token with
      | error failure =>
          obtain ⟨fault, position, rfl, hrefuse⟩ := refuse_of_advance_eq_error hstep
          rw [objection_of_refuse hrefuse]
          exact .refused fault position
      | ok q =>
          obtain ⟨hnone, hscan, hposition⟩ := scan_of_rule (advance_eq_ok_iff.1 hstep)
          rw [hnone, ok_bind, ← hscan, ← hposition]
          exact ih q

end Progress

namespace Expr

open Grammar

/-- The reader accepts exactly the token lists that the scan has nothing to report on.  It refuses
every other list with the wording and the position of the first report.  So does the reader that
reads every group by a call of its own. -/
theorem ofTokens_agrees_with_scan (w : List Token) :
    (Scan.start.firstReport 0 w = none ↔ ∃ e, ofTokens w = .ok e)
      ∧
    (∀ text position,
      Scan.start.firstReport 0 w = some ⟨text, position⟩
        ↔
      ∃ fault, fault.message = text ∧ ofTokens w = .error (.grammar fault position))
      ∧
    (Scan.start.firstReport 0 w = none ↔ ∃ e, (Nested.readTokens w).outcome = .ok e)
      ∧
    ∀ text position,
      Scan.start.firstReport 0 w = some ⟨text, position⟩
        ↔
      ∃ fault,
        fault.message = text ∧ (Nested.readTokens w).outcome = .error (.grammar fault position) := by
  have hagrees : Agrees (ofTokens w) (Scan.start.firstReport 0 w) := by
    rw [ofTokens_eq_advanceAll]
    exact Progress.agrees_of_run .start w
  have hnested : (Nested.readTokens w).outcome = ofTokens w := by
    rw [Nested.readTokens_eq]
    rfl
  rw [hnested]
  exact ⟨hagrees.none_iff, hagrees.some_iff, hagrees.none_iff, hagrees.some_iff⟩

/-- In `(2 * )` the sign without an operand is reported, not the group. -/
example :
    Scan.start.firstReport 0 [.opening, .constant 2, .operator .multiply, .closing] =
      some ⟨"Missing scalar, found operator after operator", 3⟩ := by
  decide

end Expr
end Reckoner
