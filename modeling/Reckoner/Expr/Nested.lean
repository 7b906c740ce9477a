import Reckoner.Expr.Reading

/-!
# Reading group by group

Here every bracket group is read by a call of its own, which keeps a draft of the group.  In a draft
an operand may be pending or not, and a sign too; finished sums are parked until the group ends.
What was read last and how many brackets are open is known only in the place of the reading, which
all groups share.

Nothing in these types says that an operand is pending when a sign comes, or that a sign is there
when two operands are joined.  Where one of them is missing the reading fails with an internal
failure.  A group ends at its own closing bracket or together with the tokens.
-/

namespace Reckoner
namespace Nested

/-- What was read last, as far as operands and operators have to alternate.  An opening bracket
counts as nothing, and a closing one as an operand. -/
inductive Last where
  | nothing
  | operand
  | operator
deriving DecidableEq

namespace Last

/-- Whether something that is checked as the given kind may come next. -/
def allows (last kind : Last) : Bool :=
  last == nothing || last != kind

def fault : Last → Grammar.Fault
  | operand => .missingOperator
  | operator | nothing => .missingOperand

end Last

/-- Where the reading stands: the index of the next token, the number of open brackets, and
what was read last. -/
structure Place where
  position : Nat
  depth : Nat
  last : Last
deriving DecidableEq

def Place.start : Place :=
  ⟨0, 0, .nothing⟩

/-- Reads a token that is checked as one kind and leaves another kind behind. -/
def Place.pass (place : Place) (kind left : Last) : Except Failure Place :=
  if place.last.allows kind then .ok ⟨place.position + 1, place.depth, left⟩
  else .error (.grammar kind.fault place.position)

section Joining

def leaf (token : Token) (position : Nat) : Except Failure Expr :=
  match token with
  | .constant n => .ok (.literal n)
  | .letter v => .ok (.letter v)
  | other => .error (.unexpectedOperand (String.ofList other.chars) position)

/-- Joins an operand to what is on its left, if there is anything. -/
def join (left : Option Expr) (sign : Option Operator) (right : Expr) (position : Nat) :
    Except Failure Expr :=
  match left, sign with
  | none, _ => .ok right
  | some left, some op => .ok (.operation op left right)
  | some _, none => .error (.noOperator position)

/-- Joins parked operands from left to right.  The sign after the last one is left over. -/
def gather (parked : List (Expr × Operator)) (position : Nat) :
    Except Failure (Option Expr × Option Operator) :=
  parked.foldlM
    (fun before entry => do
      let sum ← join before.1 before.2 entry.1 position
      return (some sum, some entry.2))
    (none, none)

end Joining

/-- What has been read of a group: the product in hand and the product sign after it, the finished
products with the signs after them, and whether the group has just begun. -/
structure Draft where
  pending : Option Expr
  sign : Option Operator
  parked : List (Expr × Operator)
  fresh : Bool

namespace Draft

def start : Draft :=
  ⟨none, none, [], true⟩

def add (draft : Draft) (e : Expr) (position : Nat) : Except Failure Draft := do
  let product ← join draft.pending draft.sign e position
  return ⟨some product, none, draft.parked, false⟩

def operate (draft : Draft) (op : Operator) (position : Nat) : Except Failure Draft :=
  if op = .multiply then .ok ⟨draft.pending, some op, draft.parked, false⟩
  else
    match draft.pending with
    | some e => .ok ⟨none, none, draft.parked ++ [(e, op)], false⟩
    | none => .error (.noOperand position)

def finish (draft : Draft) (position : Nat) : Except Failure Expr :=
  if draft.sign.isSome then .error (.grammar .missingFactor position)
  else
    match draft.pending with
    | none => .error (.grammar .missingElement position)
    | some product => do
        let before ← gather draft.parked position
        join before.1 before.2 product position

end Draft

/-- The result of reading a group: its expression, the place behind it, and the tokens that are
left, which are no more than there were. -/
structure Ended (n : Nat) where
  tree : Expr
  place : Place
  rest : List Token
  shorter : rest.length ≤ n

def Ended.weaken {m n : Nat} (ended : Ended m) (h : m ≤ n) : Ended n :=
  ⟨ended.tree, ended.place, ended.rest, Nat.le_trans ended.shorter h⟩

/-- Reads on from a draft of a group to the end of the group. -/
def readGroup (draft : Draft) (place : Place) :
    (tokens : List Token) → Logged (Ended tokens.length)
  | [] => do
      let tree ← Logged.lift (draft.finish place.position)
      return ⟨tree, place, [], Nat.le_refl _⟩
  | token :: rest =>
      match token with
      | .constant _ | .letter _ => do
          let next ← Logged.lift (place.pass .operand .operand)
          let e ← Logged.lift (leaf token place.position)
          let draft ← Logged.lift (draft.add e place.position)
          let ended ← readGroup draft next rest
          return ended.weaken (Nat.le_succ _)
      | .operator op =>
          if draft.fresh then Logged.fail (.grammar .leadingOperator place.position)
          else do
            let next ← Logged.lift (place.pass .operator .operator)
            let draft ← Logged.lift (draft.operate op place.position)
            let ended ← readGroup draft next rest
            return ended.weaken (Nat.le_succ _)
      | .opening => do
          let next ← Logged.lift (place.pass .operand .nothing)
          if place.depth = Grammar.depthLimit then
            Logged.fail (.grammar .tooDeep place.position)
          else do
            Logged.note (.entering place.position)
            let group ← readGroup .start { next with depth := place.depth + 1 } rest
            let draft ← Logged.lift (draft.add group.tree place.position)
            let ended ← readGroup draft group.place group.rest
            return ended.weaken (Nat.le_succ_of_le group.shorter)
      | .closing => do
          let next ← Logged.lift (place.pass .operator .operand)
          if place.depth = 0 then
            Logged.fail (.grammar .unmatchedClosing place.position)
          else do
            Logged.note (.leaving place.position)
            let tree ← Logged.lift (draft.finish next.position)
            return ⟨tree, { next with depth := place.depth - 1 }, rest, Nat.le_succ _⟩
termination_by tokens => tokens.length
decreasing_by
  · exact Nat.lt_succ_self _
  · exact Nat.lt_succ_self _
  · exact Nat.lt_succ_self _
  · exact Nat.lt_succ_self _
  · exact Nat.lt_succ_of_le group.shorter

/-- Reads the expression of a list of tokens, group by group. -/
def readTokens (tokens : List Token) : Logged Expr := do
  let ended ← readGroup .start .start tokens
  if ended.place.depth = 0 then return ended.tree
  else Logged.fail (.grammar .missingClosing ended.place.position)

end Nested
end Reckoner
