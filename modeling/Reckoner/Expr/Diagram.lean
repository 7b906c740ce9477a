import Reckoner.Expr.Basic

/-!
# Diagrams

An outline is drawn with one node a line.  The line of a child begins with an indent and a branch
mark, which differs for the last child.  Outlines are built with a cursor that walks down into new
nodes and up again.

The diagram of an expression is an outline with the root `expression`, whose only child is the
expression.
-/

namespace Reckoner

inductive Outline where
  | node (label : String) (children : List Outline)

namespace Outline

section Drawing

def branch (last : Bool) : String :=
  if last then "└─ " else "├─ "

/-- What a child adds to the indent of its own children. -/
def stem (last : Bool) : String :=
  if last then "   " else "│  "

mutual

def childLines (indent : String) (last : Bool) : Outline → List String
  | node label children =>
      (indent ++ branch last ++ label) :: childrenLines (indent ++ stem last) children

def childrenLines (indent : String) : List Outline → List String
  | [] => []
  | child :: rest => childLines indent rest.isEmpty child ++ childrenLines indent rest

end

def lines : Outline → List String
  | node label children => label :: childrenLines "" children

def draw (outline : Outline) : String :=
  String.join (outline.lines.map (· ++ "\n"))

end Drawing

section Building

/-- A node whose children are still being added, the last one first. -/
structure Unfinished where
  label : String
  added : List Outline

def Unfinished.close (o : Unfinished) : Outline :=
  .node o.label o.added.reverse

def Unfinished.add (o : Unfinished) (child : Outline) : Unfinished :=
  { o with added := child :: o.added }

/-- A place in an outline under construction: the node to which children are added, and the nodes
above it from the parent to the root. -/
structure Cursor where
  focus : Unfinished
  above : List Unfinished

namespace Cursor

def start (label : String) : Cursor :=
  ⟨⟨label, []⟩, []⟩

def descend (label : String) (cursor : Cursor) : Cursor :=
  ⟨⟨label, []⟩, cursor.focus :: cursor.above⟩

/-- Ends the node at the cursor and moves to its parent.  The root stays open. -/
def ascend (cursor : Cursor) : Cursor :=
  match cursor.above with
  | [] => cursor
  | parent :: above => ⟨parent.add cursor.focus.close, above⟩

def leaf (label : String) (cursor : Cursor) : Cursor :=
  (cursor.descend label).ascend

def finish (cursor : Cursor) : Outline :=
  cursor.above.foldl (fun done parent => (parent.add done).close) cursor.focus.close

end Cursor

end Building

end Outline

namespace Expr

section Diagram

/-- Adds the expression as a child at the cursor. -/
def sketch : Expr → Outline.Cursor → Outline.Cursor
  | literal n, cursor => cursor.leaf (String.ofList (Decimal.ofInt32 n))
  | letter v, cursor => cursor.leaf v.name
  | operation op left right, cursor =>
      (right.sketch (left.sketch (cursor.descend (String.singleton op.symbol)))).ascend

def outline (e : Expr) : Outline :=
  (e.sketch (.start "expression")).finish

def diagram (e : Expr) : String :=
  e.outline.draw

end Diagram

end Expr

end Reckoner
