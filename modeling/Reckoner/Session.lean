import Reckoner.Calculator

/-!
# Sessions

A session keeps calculators in numbered slots, all of them vacant at the start.  A step names a
slot, and is answered with a reply.  Loading a text works on any slot.  Every other action
needs a calculator in its slot, and a comparison needs one in both slots; otherwise the reply
is that the slot is vacant.  A step that fails leaves every slot as it was, and later steps
still run.
-/

namespace Reckoner

/-- Sets letters that are given by name.  The first name that is no letter is refused. -/
def Valuation.ofNamed (pairs : List (String × Int32)) : Except Failure Valuation :=
  ofPairs <$> pairs.mapM fun pair => (·, pair.2) <$> Letter.ofName pair.1

abbrev Slot := Int

abbrev Session := Slot → Option Calculator

namespace Session

section Steps

/-- What to do with the calculator that is in a slot. -/
inductive Action where
  | replace (text : Option String)
  | calculate (values : Option (List (String × Int32)))
  | diagram
  | inspect
  | text
  | letters
  | normalise
  | copy (target : Slot)
  | compare (other : Slot)

inductive Step where
  | load (slot : Slot) (text : Option String)
  | act (slot : Slot) (action : Action)

/-- The answer to a step.  A replacement that is refused is answered with the expression that
stays. -/
inductive Reply where
  | vacant
  | failed (failure : Failure)
  | holds (tree : Expr)
  | replaced (outcome : Except Failure Unit) (tree : Expr)
  | value (n : Int32)
  | shown (text : String)
  | listed (letters : List Letter)
  | copied
  | compared (same : Bool)

end Steps

section Running

def start : Session :=
  fun _ => none

def insert (session : Session) (slot : Slot) (calculator : Calculator) : Session :=
  fun other => if other = slot then some calculator else session other

@[simp]
theorem insert_self (session : Session) (slot : Slot) (calculator : Calculator) :
    session.insert slot calculator slot = some calculator := by
  simp [insert]

theorem insert_of_ne
    (session : Session) {slot other : Slot} (calculator : Calculator) (h : other ≠ slot) :
    session.insert slot calculator other = session other := by
  simp [insert, h]

def load (session : Session) (slot : Slot) (text : Option String) : Session × Reply :=
  match Calculator.ofText text with
  | .ok calculator => (session.insert slot calculator, .holds calculator.tree)
  | .error failure => (session, .failed failure)

def calculate (calculator : Calculator) :
    Option (List (String × Int32)) → Except Failure Int32
  | none => calculator.valueUnder Valuation.empty
  | some pairs => do
      let values ← Valuation.ofNamed pairs
      calculator.valueUnder values

def act (session : Session) (slot : Slot) (calculator : Calculator) :
    Action → Session × Reply
  | .replace text =>
      let (outcome, after) := calculator.replace text
      (session.insert slot after, .replaced outcome after.tree)
  | .calculate values =>
      match calculate calculator values with
      | .ok n => (session, .value n)
      | .error failure => (session, .failed failure)
  | .diagram => (session, .shown calculator.tree.diagram)
  | .inspect => (session, .shown calculator.inspect)
  | .text => (session, .shown calculator.tree.toText)
  | .letters => (session, .listed calculator.tree.letters)
  | .normalise =>
      match calculator.normalise with
      | (.ok _, after) => (session.insert slot after, .holds after.tree)
      | (.error failure, after) => (session.insert slot after, .failed failure)
  | .copy target => (session.insert target calculator, .copied)
  | .compare other =>
      match session other with
      | some second => (session, .compared (decide (calculator.tree = second.tree)))
      | none => (session, .vacant)

def perform (session : Session) : Step → Session × Reply
  | .load slot text => session.load slot text
  | .act slot action =>
      match session slot with
      | some calculator => session.act slot calculator action
      | none => (session, .vacant)

def run (session : Session) : List Step → Session × List Reply
  | [] => (session, [])
  | step :: rest =>
      let (after, reply) := session.perform step
      let (last, replies) := run after rest
      (last, reply :: replies)

end Running

end Session

end Reckoner
