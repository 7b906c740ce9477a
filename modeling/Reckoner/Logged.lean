import Reckoner.Expr.Diagram
import Reckoner.Token.Element

/-!
# Computations that leave records

A record notes an event for the log.  While a text is read, the elements that it was cut into, every
bracket group that is entered or left, and at last the text and its expression are noted; while an
expression is calculated, the number of letters that have a number, and the value.

A logged computation has an outcome, which may be a failure, and the records that it made on the
way.  Records made before a failure are kept.  Who needs only the result takes its outcome.

**Results.**
* `outcome_bind`: the outcome of two stages in sequence does not depend on their records.
* The monad laws hold (`LawfulMonad`).
-/

namespace Reckoner

inductive Record where
  | split (text : String) (elements : List Element)
  | entering (position : Nat)
  | leaving (position : Nat)
  | accepted (text : String)
  | tree (e : Expr)
  | calculating (count : Nat)
  | calculated (text : String) (n : Int32)
deriving DecidableEq

namespace Record

section Levels

/-- How detailed a log has to be to hold a record. -/
inductive Level where
  | info
  | debug
  | trace
deriving DecidableEq

def Level.name : Level → String
  | info => "INFO"
  | debug => "DEBUG"
  | trace => "TRACE"

/-- The detail of a log, counted from one that holds errors only.  Warnings would be the first thing
to be added. -/
def Level.detail : Level → Int
  | info => 2
  | debug => 3
  | trace => 4

def level : Record → Level
  | split .. | entering _ | leaving _ => .trace
  | accepted _ | tree _ | calculating _ => .debug
  | calculated .. => .info

/-- The records that are detailed enough for a log, in their order. -/
def upTo (detail : Int) (records : List Record) : List Record :=
  records.filter fun record => record.level.detail ≤ detail

end Levels

section Wording

/-- Elements between double quotes, separated by commas, between square brackets. -/
def listed (elements : List Element) : String :=
  "[" ++ ", ".intercalate (elements.map fun element => "\"" ++ element ++ "\"") ++ "]"

def message : Record → String
  | split text elements => "Split '" ++ text ++ "' into elements " ++ listed elements
  | entering position =>
      "Entering bracket group at index " ++ String.ofList (Decimal.ofNat position)
  | leaving position =>
      "Leaving bracket group at index " ++ String.ofList (Decimal.ofNat position)
  | accepted text => "Registered expression \"" ++ text ++ "\""
  | tree e => "Expression tree:\n" ++ e.diagram
  | calculating count =>
      "Calculating with " ++ String.ofList (Decimal.ofNat count) ++ " variable value(s)"
  | calculated text n => text ++ " = " ++ String.ofList (Decimal.ofInt32 n)

/-- The line of a record in a log. -/
def line (record : Record) : String :=
  record.level.name ++ " " ++ record.message

end Wording

end Record

/-- An outcome together with the records made on the way to it. -/
structure Logged (α : Type) where
  records : List Record
  outcome : Except Failure α

namespace Logged

section Operations

variable {α β : Type}

protected def pure (a : α) : Logged α :=
  ⟨[], .ok a⟩

/-- Runs one computation after another, unless the first one fails. -/
protected def bind (x : Logged α) (f : α → Logged β) : Logged β :=
  match x.outcome with
  | .ok a =>
      let y := f a
      ⟨x.records ++ y.records, y.outcome⟩
  | .error failure => ⟨x.records, .error failure⟩

instance : Monad Logged where
  pure := Logged.pure
  bind := Logged.bind

/-- Takes over an outcome without a record. -/
def lift (outcome : Except Failure α) : Logged α :=
  ⟨[], outcome⟩

def fail (failure : Failure) : Logged α :=
  ⟨[], .error failure⟩

def note (record : Record) : Logged Unit :=
  ⟨[record], .ok ()⟩

end Operations

section Laws

variable {α β : Type}

@[ext] theorem ext
    {x y : Logged α}
    (hrecords : x.records = y.records)
    (houtcome : x.outcome = y.outcome) :
    x = y := by
  cases x
  cases y
  cases hrecords
  cases houtcome
  rfl

@[simp] theorem outcome_pure (a : α) : (pure a : Logged α).outcome = .ok a := rfl

@[simp] theorem records_pure (a : α) : (pure a : Logged α).records = [] := rfl

@[simp] theorem outcome_lift (x : Except Failure α) : (lift x).outcome = x := rfl

@[simp] theorem records_lift (x : Except Failure α) : (lift x).records = [] := rfl

@[simp] theorem outcome_fail (failure : Failure) :
    (fail failure : Logged α).outcome = .error failure := rfl

@[simp] theorem records_fail (failure : Failure) : (fail failure : Logged α).records = [] := rfl

@[simp] theorem outcome_note (record : Record) : (note record).outcome = .ok () := rfl

@[simp] theorem records_note (record : Record) : (note record).records = [record] := rfl

/-- Outcomes are composed without looking at the records. -/
@[simp] theorem outcome_bind (x : Logged α) (f : α → Logged β) :
    (x >>= f).outcome = x.outcome >>= fun a => (f a).outcome := by
  show (Logged.bind x f).outcome = _
  unfold Logged.bind
  cases x.outcome <;> rfl

/-- The outcome of a fold is the fold of the outcomes. -/
theorem outcome_foldlM (f : β → α → Logged β) (b : β) (list : List α) :
    (list.foldlM f b).outcome = list.foldlM (fun b a => (f b a).outcome) b := by
  induction list generalizing b with
  | nil => rfl
  | cons a rest ih => simp only [List.foldlM_cons, outcome_bind, ih]

/-- The records of a sequence whose first part succeeds are those of both parts. -/
theorem records_bind_of_ok
    {x : Logged α} {a : α} (f : α → Logged β) (h : x.outcome = .ok a) :
    (x >>= f).records = x.records ++ (f a).records := by
  show (Logged.bind x f).records = _
  simp only [Logged.bind, h]

/-- The records of a sequence whose first part fails are those of the first part. -/
theorem records_bind_of_error
    {x : Logged α} {failure : Failure} (f : α → Logged β)
    (h : x.outcome = .error failure) :
    (x >>= f).records = x.records := by
  show (Logged.bind x f).records = _
  simp only [Logged.bind, h]

instance : LawfulMonad Logged := LawfulMonad.mk' Logged
  (by
    intro α x
    obtain ⟨records, outcome⟩ := x
    cases outcome with
    | error failure => rfl
    | ok a => exact congrArg (Logged.mk · (.ok a)) (List.append_nil records))
  (by intros; rfl)
  (by
    intro α β γ x f g
    obtain ⟨records, outcome⟩ := x
    cases outcome with
    | error failure => rfl
    | ok a =>
        show Logged.bind (Logged.bind ⟨records, .ok a⟩ f) g =
          Logged.bind ⟨records, .ok a⟩ fun a => Logged.bind (f a) g
        simp only [Logged.bind]
        cases (f a).outcome with
        | error failure => rfl
        | ok b => simp only [List.append_assoc])

@[simp] theorem lift_ok_bind (a : α) (f : α → Logged β) : (lift (.ok a) >>= f) = f a := rfl

@[simp] theorem lift_error_bind (failure : Failure) (f : α → Logged β) :
    (lift (.error failure) >>= f) = fail failure := rfl

@[simp] theorem fail_bind (failure : Failure) (f : α → Logged β) :
    (fail failure >>= f) = fail failure := rfl

/-- What comes second matters only for the results that the first part can have. -/
theorem bind_congr_of_ok
    {x : Logged α} {f g : α → Logged β}
    (h : ∀ a, x.outcome = .ok a → f a = g a) :
    (x >>= f) = (x >>= g) := by
  obtain ⟨records, outcome⟩ := x
  show Logged.bind _ f = Logged.bind _ g
  unfold Logged.bind
  cases outcome with
  | error failure => rfl
  | ok a => simp only [h a rfl]

end Laws

end Logged

end Reckoner
