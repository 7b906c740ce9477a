import Reckoner.Expr.Diagram
import Reckoner.Proofs.Outlines

/-!
# What a diagram shows

The diagram of an expression is built by calls to a cursor, one that begins a node for every
operation and one that ends it.  Whatever the cursor has built before, the calls add one more
child: the figure of the expression, which has the same shape and a label for every node.

Labels say what they stand for.  A figure with two children is an operation, and one without
children is a letter or a literal, which begins with a digit or a minus sign.  So the figure
belongs to no other expression, nor does its drawing.

**Results.**
* `sketch_eq_foldl` and `balanced_calls`: the calls behind a diagram.
* `outline_eq`: the outline of an expression is its figure below the title.
* `figure_inj`: different expressions have different figures.
* `diagram_shows_expression`: the diagram has a line for every node and determines the expression.
-/

namespace Reckoner
namespace Expr

open Outline

section Definitions

/-- The number of literals, letters and operations. -/
def size : Expr → Nat
  | literal _ | letter _ => 1
  | operation _ left right => left.size + right.size + 1

/-- The expression as a labelled tree. -/
def figure : Expr → Outline
  | literal n => .node (String.ofList (Decimal.ofInt32 n)) []
  | letter v => .node v.name []
  | operation op left right => .node (String.singleton op.symbol) [left.figure, right.figure]

/-- The calls that add the expression below a cursor. -/
def calls : Expr → List Outline.Call
  | literal n => [.leaf (String.ofList (Decimal.ofInt32 n))]
  | letter v => [.leaf v.name]
  | operation op left right =>
      .descend (String.singleton op.symbol) :: (left.calls ++ right.calls ++ [.ascend])

end Definitions

section Building

theorem balanced_calls (e : Expr) :
    Balanced e.calls := by
  induction e with
  | literal _ | letter _ =>
      exact balanced_leaf _
  | operation op left right ihL ihR =>
      exact (ihL.append ihR).enclose _

theorem sketch_eq_foldl
    (e : Expr)
    (cursor : Cursor) :
    e.sketch cursor = e.calls.foldl Cursor.take cursor := by
  induction e generalizing cursor with
  | literal _ | letter _ =>
      rfl
  | operation op left right ihL ihR =>
      rw [sketch, calls, ihL, ihR, List.foldl_cons, List.foldl_append, List.foldl_append]
      rfl

/-- The figure is added as one more child, and nothing else is changed. -/
theorem sketch_eq
    (e : Expr)
    (cursor : Cursor) :
    e.sketch cursor = ⟨cursor.focus.add e.figure, cursor.above⟩ := by
  induction e generalizing cursor with
  | literal _ | letter _ =>
      rfl
  | operation op left right ihL ihR =>
      rw [sketch, ihR, ihL]
      rfl

theorem outline_eq (e : Expr) :
    e.outline = .node "expression" [e.figure] := by
  rw [outline, sketch_eq]
  rfl

end Building

section Labels

theorem labels_operation
    (op : Operator)
    (left right : Expr) :
    (operation op left right).figure.labels =
      String.singleton op.symbol :: (left.figure.labels ++ right.figure.labels) := by
  rw [figure, labels, childrenLabels, childrenLabels, childrenLabels, List.append_nil]

theorem labels_outline (e : Expr) :
    e.outline.labels = "expression" :: e.figure.labels := by
  rw [outline_eq, labels, childrenLabels, childrenLabels, List.append_nil]

theorem length_labels (e : Expr) :
    e.figure.labels.length = e.size := by
  induction e with
  | literal _ | letter _ =>
      rw [figure, labels, childrenLabels]
      rfl
  | operation op left right ihL ihR =>
      rw [labels_operation, List.length_cons, List.length_append, ihL, ihR, size]

theorem oneLine_ofInt32 (n : Int32) :
    OneLine (String.ofList (Decimal.ofInt32 n)) := by
  rw [OneLine, String.toList_ofList]
  intro hmem
  rcases Decimal.isDigit_or_minus_of_mem_ofInt32 hmem with hdigit | hminus
  · exact absurd hdigit (by decide)
  · exact absurd hminus (by decide)

theorem oneLine_name (v : Letter) :
    OneLine v.name := by
  have hbreak : v.char ≠ '\n' := v.char_ne (by decide)
  rw [OneLine, Letter.name, String.toList_singleton, List.mem_singleton]
  exact hbreak.symm

theorem oneLine_symbol (op : Operator) :
    OneLine (String.singleton op.symbol) := by
  rw [OneLine, String.toList_singleton]
  cases op <;> decide

theorem oneLine_of_mem_labels
    {e : Expr} {label : String}
    (h : label ∈ e.figure.labels) :
    OneLine label := by
  induction e with
  | literal n =>
      obtain rfl := List.mem_singleton.1 h
      exact oneLine_ofInt32 n
  | letter v =>
      obtain rfl := List.mem_singleton.1 h
      exact oneLine_name v
  | operation op left right ihL ihR =>
      rw [labels_operation] at h
      rcases List.mem_cons.1 h with rfl | hbelow
      · exact oneLine_symbol op
      · exact (List.mem_append.1 hbelow).elim ihL ihR

theorem oneLine_of_mem_labels_outline
    {e : Expr} {label : String}
    (h : label ∈ e.outline.labels) :
    OneLine label := by
  rw [labels_outline] at h
  rcases List.mem_cons.1 h with rfl | hbelow
  · simp [OneLine]
  · exact oneLine_of_mem_labels hbelow

end Labels

section Figures

/-- No literal is written like a letter. -/
theorem ofInt32_ne_name
    (n : Int32)
    (v : Letter) :
    String.ofList (Decimal.ofInt32 n) ≠ v.name := by
  intro h
  have hchars : Decimal.ofInt32 n = [v.char] := by
    rw [← String.toList_inj, String.toList_ofList] at h
    rw [h, Letter.name, String.toList_singleton]
  have hmem : v.char ∈ Decimal.ofInt32 n := by
    rw [hchars]
    exact List.mem_singleton_self _
  rcases Decimal.isDigit_or_minus_of_mem_ofInt32 hmem with hdigit | hminus
  · rw [Text.isDigit_char] at hdigit
    cases hdigit
  · exact v.char_ne (by decide) hminus

theorem figure_inj
    {a b : Expr}
    (h : a.figure = b.figure) :
    a = b := by
  induction a generalizing b with
  | literal m =>
      cases b with
      | literal n =>
          have hlabel := (Outline.node.inj h).1
          rw [Decimal.ofInt32_inj (String.ofList_inj.1 hlabel)]
      | letter v =>
          exact absurd (Outline.node.inj h).1 (ofInt32_ne_name m v)
      | operation _ _ _ =>
          cases (Outline.node.inj h).2
  | letter v =>
      cases b with
      | literal n =>
          exact absurd (Outline.node.inj h).1.symm (ofInt32_ne_name n v)
      | letter w =>
          have hlabel := (Outline.node.inj h).1
          rw [Letter.ext (String.singleton_inj.1 hlabel)]
      | operation _ _ _ =>
          cases (Outline.node.inj h).2
  | operation op left right ihL ihR =>
      cases b with
      | literal _ | letter _ =>
          cases (Outline.node.inj h).2
      | operation other first second =>
          obtain ⟨hlabel, hchildren⟩ := Outline.node.inj h
          obtain ⟨hleft, hlast⟩ := List.cons.inj hchildren
          have hright := (List.cons.inj hlast).1
          rw [Operator.symbol_inj.1 (String.singleton_inj.1 hlabel), ihL hleft, ihR hright]

theorem diagram_inj
    {a b : Expr}
    (h : a.diagram = b.diagram) :
    a = b := by
  have houtline : a.outline = b.outline :=
    draw_inj (fun _ => oneLine_of_mem_labels_outline) (fun _ => oneLine_of_mem_labels_outline) h
  rw [outline_eq, outline_eq] at houtline
  exact figure_inj (List.cons.inj (Outline.node.inj houtline).2).1

/-- The calls behind a diagram are balanced and build the figure of the expression below the title.
The drawing has one line for the title and one for every node, with the labels in order.  No other
expression has the same diagram. -/
theorem diagram_shows_expression :
    (∀ e : Expr,
      Balanced e.calls
        ∧
      (∀ cursor, e.sketch cursor = e.calls.foldl Cursor.take cursor)
        ∧
      e.outline = .node "expression" [e.figure]
        ∧
      ∃ lines,
        e.diagram = String.join (lines.map (· ++ "\n")) ∧
        (∀ line ∈ lines, OneLine line) ∧
        lines.length = e.size + 1 ∧
        List.Forall₂ Shows ("expression" :: e.figure.labels) lines)
      ∧
    ∀ a b : Expr, a.diagram = b.diagram → a = b := by
  refine ⟨fun e => ?_, fun a b => diagram_inj⟩
  refine ⟨e.balanced_calls, e.sketch_eq_foldl, e.outline_eq, e.outline.lines, rfl, ?_, ?_, ?_⟩
  · intro line hline
    exact oneLine_of_mem_lines (fun _ => oneLine_of_mem_labels_outline) hline
  · rw [← (forall₂_lines e.outline).length_eq, labels_outline, List.length_cons, length_labels]
  · rw [← labels_outline]
    exact forall₂_lines e.outline

/-- The diagrams of `a - -2` and of `a - 2` differ, and so do those of `a - (b - c)` and of
`a - b - c`, which have the same labels in another order. -/
theorem diagram_shows_expression_differences :
    (operation .subtract (letter ⟨'a', rfl⟩) (literal (-2))).diagram ≠
        (operation .subtract (letter ⟨'a', rfl⟩) (literal 2)).diagram
      ∧
    (operation .subtract (letter ⟨'a', rfl⟩)
        (operation .subtract (letter ⟨'b', rfl⟩) (letter ⟨'c', rfl⟩))).diagram ≠
      (operation .subtract (operation .subtract (letter ⟨'a', rfl⟩) (letter ⟨'b', rfl⟩))
        (letter ⟨'c', rfl⟩)).diagram := by
  constructor
  · intro h
    cases diagram_shows_expression.2 _ _ h
  · intro h
    cases diagram_shows_expression.2 _ _ h

end Figures

end Expr
end Reckoner
