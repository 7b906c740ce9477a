import Reckoner.Logged

/-!
# Reading expressions

A text becomes a list of tokens in three steps: it is checked against the alphabet, cut into
elements, and each element is read as a token.  The first step that fails decides the failure, and
of several unreadable elements the first.  A text of spaces alone has no tokens, which is no failure
here.

Tokens are read from left to right, one step a token.  Between two steps the reader is either
waiting for an operand or has just completed one.  What it keeps of the bracket group in hand is a
`Gap` in the first case and a `Run` in the second; of every group around it, it keeps the gap that
the bracketed operand is going to fill.

A step fails at the first token that cannot go on.  Brackets that are entered or left are noted.
The second bracket of an empty group is left before the emptiness is reported, at the index after
it.
-/

namespace Reckoner

namespace Token

def readText : Option String → Logged (List Token)
  | none => Logged.fail .absent
  | some text => do
      Logged.lift (Text.check text)
      Logged.note (.split text (Element.split text))
      Logged.lift ((Element.split text).mapM Element.toToken)

def ofText (text : Option String) : Except Failure (List Token) :=
  (readText text).outcome

theorem ofText_some (text : String) :
    ofText (some text) =
      Text.check text >>= fun _ => (Element.split text).mapM Element.toToken := by
  simp only [ofText, readText, Logged.outcome_bind, Logged.outcome_lift, Logged.outcome_note]
  rfl

end Token

/-- What stands in a group to the left of an operand that is still to come: nothing, a finished sum
with the sign after it, or factors with a product sign after them and the sum to which their product
will belong. -/
inductive Gap where
  | first
  | term (sum : Expr) (op : Operator)
  | factor (sum : Option (Expr × Operator)) (product : Expr)
deriving DecidableEq

/-- What stands in a group up to and including a completed operand: the factors of the last
term, and the sum to which their product will belong. -/
structure Run where
  sum : Option (Expr × Operator)
  product : Expr
deriving DecidableEq

def Gap.fill : Gap → Expr → Run
  | first, e => ⟨none, e⟩
  | term sum op, e => ⟨some (sum, op), e⟩
  | factor sum product, e => ⟨sum, .operation .multiply product e⟩

namespace Run

/-- The expression read so far, if the group ends here. -/
def total (run : Run) : Expr :=
  match run.sum with
  | none => run.product
  | some (sum, op) => .operation op sum run.product

def extend (run : Run) : Operator → Gap
  | .add => .term run.total .add
  | .subtract => .term run.total .subtract
  | .multiply => .factor run.sum run.product

end Run

inductive Group where
  | waiting (gap : Gap)
  | complete (run : Run)
deriving DecidableEq

/-- How far the reader has come: the number of tokens read, the gaps of the groups around the
one in hand from the innermost to the outermost, and the group in hand. -/
structure Progress where
  position : Nat
  outer : List Gap
  group : Group
deriving DecidableEq

namespace Progress

def start : Progress :=
  ⟨0, [], .waiting .first⟩

def depth (p : Progress) : Nat :=
  p.outer.length

/-- One more token has been read, and the group in hand has changed. -/
def next (p : Progress) (group : Group) : Progress :=
  ⟨p.position + 1, p.outer, group⟩

def refuse {α : Type} (p : Progress) (fault : Grammar.Fault) : Logged α :=
  Logged.fail (.grammar fault p.position)

def operand (p : Progress) (e : Expr) : Logged Progress :=
  match p.group with
  | .waiting gap => pure (p.next (.complete (gap.fill e)))
  | .complete _ => p.refuse .missingOperator

def operator (p : Progress) (op : Operator) : Logged Progress :=
  match p.group with
  | .waiting .first => p.refuse .leadingOperator
  | .waiting (.term ..) | .waiting (.factor ..) => p.refuse .missingOperand
  | .complete run => pure (p.next (.waiting (run.extend op)))

def opening (p : Progress) : Logged Progress :=
  match p.group with
  | .waiting gap =>
      if p.depth = Grammar.depthLimit then p.refuse .tooDeep
      else do
        Logged.note (.entering p.position)
        pure ⟨p.position + 1, gap :: p.outer, .waiting .first⟩
  | .complete _ => p.refuse .missingOperator

def closing (p : Progress) : Logged Progress :=
  match p.group with
  | .waiting (.term ..) | .waiting (.factor ..) => p.refuse .missingOperand
  | .waiting .first =>
      match p.outer with
      | [] => p.refuse .unmatchedClosing
      | _ :: _ => do
          Logged.note (.leaving p.position)
          Logged.fail (.grammar .missingElement (p.position + 1))
  | .complete run =>
      match p.outer with
      | [] => p.refuse .unmatchedClosing
      | gap :: outer => do
          Logged.note (.leaving p.position)
          pure ⟨p.position + 1, outer, .complete (gap.fill run.total)⟩

def step (p : Progress) : Token → Logged Progress
  | .constant n => p.operand (.literal n)
  | .letter v => p.operand (.letter v)
  | .operator op => p.operator op
  | .opening => p.opening
  | .closing => p.closing

/-- Ends the reading: all groups have to be closed and an operand has to be complete. -/
def finish (p : Progress) : Except Failure Expr :=
  match p.group with
  | .waiting (.factor ..) => .error (.grammar .missingFactor p.position)
  | .waiting .first | .waiting (.term ..) => .error (.grammar .missingElement p.position)
  | .complete run =>
      match p.outer with
      | [] => .ok run.total
      | _ :: _ => .error (.grammar .missingClosing p.position)

end Progress

namespace Expr

/-- Reads the expression of a list of tokens and notes its bracket groups. -/
def readTokens (tokens : List Token) : Logged Expr := do
  let p ← tokens.foldlM Progress.step .start
  Logged.lift p.finish

def ofTokens (tokens : List Token) : Except Failure Expr :=
  (readTokens tokens).outcome

theorem ofTokens_eq (tokens : List Token) :
    ofTokens tokens =
      tokens.foldlM (fun p token => (p.step token).outcome) Progress.start >>=
        Progress.finish := by
  simp only [ofTokens, readTokens, Logged.outcome_bind, Logged.outcome_foldlM,
    Logged.outcome_lift]

def readText (text : Option String) : Logged Expr := do
  let tokens ← Token.readText text
  readTokens tokens

def ofText (text : Option String) : Except Failure Expr :=
  (readText text).outcome

theorem ofText_eq (text : Option String) :
    ofText text = Token.ofText text >>= ofTokens :=
  Logged.outcome_bind _ _

end Expr

end Reckoner
