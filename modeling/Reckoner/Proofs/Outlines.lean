import Mathlib.Data.List.Forall2
import Mathlib.Data.List.Infix
import Reckoner.Expr.Diagram
import Reckoner.Proofs.Written

/-!
# Outlines and their drawings

The drawing of an outline has a line for every node, with the nodes in the order in which they are
met from the root downwards, and each line ends in the label of its node.

The shape of the outline is drawn in front of the labels only, but it can be recovered from there.
All that is drawn below a child begins with the stem of that child, while the line of the next
child begins with a branch.  No stem is a branch, so the lines below a child end where its stem is
missing.

An outline is built by calls that begin a node, add one without children, or end one.

**Results.**
* `forall₂_lines`: the lines in the order of the nodes, each with the label of its node.
* `lines_inj`: outlines with the same lines are the same.
* `draw_inj`: outlines with the same drawing are the same, if no label has a line break.
* `Balanced.append` and `Balanced.enclose`: calls that end as many nodes as they begin.
-/

namespace Reckoner
namespace Outline

/-- Induction on a list of outlines, the first of which has a list of children itself. -/
theorem forest_induction
    {motive : List Outline → Prop}
    (nil : motive [])
    (cons :
      ∀ label children rest,
        motive children →
        motive rest →
        motive (.node label children :: rest)) :
    ∀ forest, motive forest
  | [] => nil
  | .node label children :: rest =>
      cons label children rest
        (forest_induction nil cons children)
        (forest_induction nil cons rest)

section Definitions

mutual

/-- The label of an outline and those of all below it, in the order of the lines. -/
def labels : Outline → List String
  | node label children => label :: childrenLabels children

/-- The labels of several children and of all below them. -/
def childrenLabels : List Outline → List String
  | [] => []
  | child :: rest => child.labels ++ childrenLabels rest

end

/-- A line ends in the label. -/
def Shows (label line : String) : Prop :=
  ∃ front, line = front ++ label

/-- Whether a line begins with a text. -/
def begins (front line : String) : Bool :=
  front.toList.isPrefixOf line.toList

/-- A text without line breaks. -/
def OneLine (text : String) : Prop :=
  '\n' ∉ text.toList

end Definitions

section Lines

theorem childrenLabels_cons
    (label : String)
    (children rest : List Outline) :
    childrenLabels (.node label children :: rest) =
      label :: (childrenLabels children ++ childrenLabels rest) := by
  rw [childrenLabels, labels, List.cons_append]

theorem childrenLines_cons
    (indent label : String)
    (children rest : List Outline) :
    childrenLines indent (.node label children :: rest) =
      (indent ++ branch rest.isEmpty ++ label) ::
        (childrenLines (indent ++ stem rest.isEmpty) children ++ childrenLines indent rest) := by
  rw [childrenLines, childLines, List.cons_append]

theorem mem_childrenLines_cons_iff
    (indent label line : String)
    (children rest : List Outline) :
    line ∈ childrenLines indent (.node label children :: rest)
      ↔
    line = indent ++ branch rest.isEmpty ++ label ∨
      line ∈ childrenLines (indent ++ stem rest.isEmpty) children ∨
      line ∈ childrenLines indent rest := by
  rw [childrenLines_cons, List.mem_cons, List.mem_append]

theorem forall₂_childrenLines
    (indent : String)
    (forest : List Outline) :
    List.Forall₂ Shows (childrenLabels forest) (childrenLines indent forest) := by
  induction forest using forest_induction generalizing indent with
  | nil =>
      rw [childrenLabels, childrenLines]
      exact .nil
  | cons label children rest ihChildren ihRest =>
      rw [childrenLabels_cons, childrenLines_cons]
      exact .cons ⟨_, rfl⟩ (List.rel_append (ihChildren _) (ihRest _))

/-- Every node has its line, in the order of the labels. -/
theorem forall₂_lines (outline : Outline) :
    List.Forall₂ Shows outline.labels outline.lines := by
  obtain ⟨label, children⟩ := outline
  rw [labels, lines]
  exact .cons ⟨"", String.empty_append.symm⟩ (forall₂_childrenLines "" children)

end Lines

section Shape

theorem begins_iff (front line : String) :
    begins front line = true ↔ front.toList <+: line.toList :=
  List.isPrefixOf_iff_prefix

theorem begins_append_iff (front back line : String) :
    begins (front ++ back) (front ++ line) = true ↔ back.toList <+: line.toList := by
  rw [begins_iff, String.toList_append, String.toList_append, List.prefix_append_right_inj]

theorem begins_append (front line : String) :
    begins front (front ++ line) = true := by
  rw [begins_iff, String.toList_append]
  exact List.prefix_append _ _

theorem begins_of_append
    {front back line : String}
    (h : begins (front ++ back) line = true) :
    begins front line = true := by
  rw [begins_iff, String.toList_append] at h
  rw [begins_iff]
  exact (List.prefix_append _ _).trans h

/-- Whatever is drawn below a node begins with the indent of its children. -/
theorem begins_of_mem_childrenLines
    {indent line : String} {forest : List Outline}
    (h : line ∈ childrenLines indent forest) :
    begins indent line = true := by
  induction forest using forest_induction generalizing indent with
  | nil =>
      rw [childrenLines] at h
      cases h
  | cons label children rest ihChildren ihRest =>
      rcases (mem_childrenLines_cons_iff ..).1 h with rfl | hchild | hrest
      · rw [String.append_assoc]
        exact begins_append _ _
      · exact begins_of_append (ihChildren hchild)
      · exact ihRest hrest

/-- No stem is a branch. -/
theorem not_stem_prefix_branch
    (last other : Bool)
    (label : String) :
    ¬ (stem last).toList <+: (branch other ++ label).toList := by
  rw [String.toList_append]
  cases last <;> cases other <;> simp [stem, branch]

/-- The line of a child does not begin with the stem of another one. -/
theorem not_begins_head
    (indent : String)
    (last : Bool)
    (forest : List Outline) :
    (childrenLines indent forest).head?.any (begins (indent ++ stem last)) = false := by
  cases forest with
  | nil =>
      rw [childrenLines]
      rfl
  | cons child rest =>
      obtain ⟨label, children⟩ := child
      rw [childrenLines_cons, List.head?_cons, Option.any_some, Bool.eq_false_iff,
        String.append_assoc, ne_eq, begins_append_iff]
      exact not_stem_prefix_branch _ _ _

theorem length_branch (last : Bool) :
    (branch last).toList.length = 3 := by
  cases last <;> simp [branch]

theorem branch_inj
    {last other : Bool}
    (h : (branch last).toList = (branch other).toList) :
    last = other := by
  cases last <;> cases other <;> simp [branch] at h ⊢

/-- A line tells whether its node is the last child, and shows its label. -/
theorem line_inj
    {indent label title : String} {last other : Bool}
    (h : indent ++ branch last ++ label = indent ++ branch other ++ title) :
    last = other ∧ label = title := by
  rw [String.append_assoc, String.append_assoc, String.append_right_inj, ← String.toList_inj,
    String.toList_append, String.toList_append] at h
  have hlength : (branch last).toList.length = (branch other).toList.length := by
    rw [length_branch, length_branch]
  obtain ⟨hbranch, hlabel⟩ := List.append_inj h hlength
  exact ⟨branch_inj hbranch, String.toList_inj.1 hlabel⟩

/-- Outlines below the same indent can be told from their lines. -/
theorem childrenLines_inj
    {indent : String} {a b : List Outline}
    (h : childrenLines indent a = childrenLines indent b) :
    a = b := by
  induction a using forest_induction generalizing indent b with
  | nil =>
      cases b with
      | nil =>
          rfl
      | cons other more =>
          obtain ⟨title, others⟩ := other
          rw [childrenLines, childrenLines_cons] at h
          cases h
  | cons label children rest ihChildren ihRest =>
      cases b with
      | nil =>
          rw [childrenLines_cons, childrenLines] at h
          cases h
      | cons other more =>
          obtain ⟨title, others⟩ := other
          rw [childrenLines_cons, childrenLines_cons] at h
          obtain ⟨hline, hbelow⟩ := List.cons.inj h
          obtain ⟨hlast, hlabel⟩ := line_inj hline
          rw [← hlast] at hbelow
          -- The lines below the first child end where its stem is missing.
          obtain ⟨hchildren, hrest⟩ :=
            append_inj_of_kind
              (fun _ => begins_of_mem_childrenLines)
              (fun _ => begins_of_mem_childrenLines)
              (not_begins_head indent rest.isEmpty rest)
              (not_begins_head indent rest.isEmpty more)
              hbelow
          rw [hlabel, ihChildren hchildren, ihRest hrest]

theorem lines_inj
    {a b : Outline}
    (h : a.lines = b.lines) :
    a = b := by
  obtain ⟨label, children⟩ := a
  obtain ⟨title, others⟩ := b
  obtain ⟨hlabel, hlines⟩ := List.cons.inj h
  rw [hlabel, childrenLines_inj hlines]

end Shape

section Drawings

theorem OneLine.append
    {a b : String}
    (ha : OneLine a)
    (hb : OneLine b) :
    OneLine (a ++ b) := by
  rw [OneLine, String.toList_append, List.mem_append]
  exact fun h => h.elim ha hb

theorem oneLine_branch (last : Bool) :
    OneLine (branch last) := by
  cases last <;> simp [OneLine, branch]

theorem oneLine_stem (last : Bool) :
    OneLine (stem last) := by
  cases last <;> simp [OneLine, stem]

theorem oneLine_of_mem_childrenLines
    {indent line : String} {forest : List Outline}
    (hindent : OneLine indent)
    (hlabels : ∀ label ∈ childrenLabels forest, OneLine label)
    (h : line ∈ childrenLines indent forest) :
    OneLine line := by
  induction forest using forest_induction generalizing indent with
  | nil =>
      rw [childrenLines] at h
      cases h
  | cons label children rest ihChildren ihRest =>
      rw [childrenLabels_cons] at hlabels
      simp only [List.forall_mem_cons, List.forall_mem_append] at hlabels
      obtain ⟨hlabel, hchildren, hrest⟩ := hlabels
      rcases (mem_childrenLines_cons_iff ..).1 h with rfl | hchild | hnext
      · exact (hindent.append (oneLine_branch _)).append hlabel
      · exact ihChildren (hindent.append (oneLine_stem _)) hchildren hchild
      · exact ihRest hindent hrest hnext

theorem oneLine_of_mem_lines
    {outline : Outline} {line : String}
    (hlabels : ∀ label ∈ outline.labels, OneLine label)
    (h : line ∈ outline.lines) :
    OneLine line := by
  obtain ⟨label, children⟩ := outline
  rw [labels, List.forall_mem_cons] at hlabels
  rcases List.mem_cons.1 h with rfl | hbelow
  · exact hlabels.1
  · exact oneLine_of_mem_childrenLines (by simp [OneLine]) hlabels.2 hbelow

theorem toList_join_lines
    (line : String)
    (rest : List String) :
    (String.join ((line :: rest).map (· ++ "\n"))).toList =
      line.toList ++ '\n' :: (String.join (rest.map (· ++ "\n"))).toList := by
  simp [String.toList_join]

/-- Lines can be told from the text in which each of them is ended. -/
theorem join_lines_inj
    {a b : List String}
    (ha : ∀ line ∈ a, OneLine line)
    (hb : ∀ line ∈ b, OneLine line)
    (h : String.join (a.map (· ++ "\n")) = String.join (b.map (· ++ "\n"))) :
    a = b := by
  induction a generalizing b with
  | nil =>
      cases b with
      | nil =>
          rfl
      | cons other more =>
          rw [← String.toList_inj, toList_join_lines] at h
          simp at h
  | cons line rest ih =>
      cases b with
      | nil =>
          rw [← String.toList_inj, toList_join_lines] at h
          simp at h
      | cons other more =>
          rw [← String.toList_inj, toList_join_lines, toList_join_lines] at h
          obtain ⟨hline, hrest⟩ := List.forall_mem_cons.1 ha
          obtain ⟨hother, hmore⟩ := List.forall_mem_cons.1 hb
          have hinside :
              ∀ {text : String}, OneLine text → ∀ c ∈ text.toList, (c != '\n') = true := by
            intro text htext c hc
            rw [bne_iff_ne]
            rintro rfl
            exact htext hc
          obtain ⟨hsame, hbelow⟩ :=
            append_inj_of_kind (hinside hline) (hinside hother) (by rfl) (by rfl) h
          rw [String.toList_inj.1 hsame,
            ih hrest hmore (String.toList_inj.1 (List.cons.inj hbelow).2)]

theorem draw_inj
    {a b : Outline}
    (ha : ∀ label ∈ a.labels, OneLine label)
    (hb : ∀ label ∈ b.labels, OneLine label)
    (h : a.draw = b.draw) :
    a = b :=
  lines_inj
    (join_lines_inj (fun _ => oneLine_of_mem_lines ha) (fun _ => oneLine_of_mem_lines hb) h)

end Drawings

section Calls

/-- What is asked of a cursor while an outline is built. -/
inductive Call where
  | descend (label : String)
  | leaf (label : String)
  | ascend

namespace Call

def isDescent : Call → Bool
  | descend _ => true
  | leaf _ | ascend => false

def isAscent : Call → Bool
  | ascend => true
  | descend _ | leaf _ => false

end Call

/-- Follows a call. -/
def Cursor.take (cursor : Cursor) : Call → Cursor
  | .descend label => cursor.descend label
  | .leaf label => cursor.leaf label
  | .ascend => cursor.ascend

/-- Every node that is begun is ended, and no node is ended before it is begun. -/
structure Balanced (calls : List Call) : Prop where
  ended : calls.countP Call.isAscent = calls.countP Call.isDescent
  begun :
    ∀ start,
      start <+: calls →
      start.countP Call.isAscent ≤ start.countP Call.isDescent

theorem balanced_leaf (label : String) :
    Balanced [.leaf label] where
  ended := by rfl
  begun := by
    intro start hstart
    rcases List.prefix_cons_iff.1 hstart with rfl | ⟨tail, rfl, htail⟩
    · exact Nat.le_refl _
    · rw [List.prefix_nil.1 htail]
      exact Nat.le_refl _

theorem Balanced.append
    {u v : List Call}
    (hu : Balanced u)
    (hv : Balanced v) :
    Balanced (u ++ v) where
  ended := by
    rw [List.countP_append, List.countP_append, hu.ended, hv.ended]
  begun := by
    intro start hstart
    rcases List.prefix_or_prefix_of_prefix hstart (List.prefix_append u v) with hle | ⟨tail, rfl⟩
    · exact hu.begun start hle
    · rw [List.countP_append, List.countP_append, hu.ended]
      exact Nat.add_le_add_left (hv.begun tail ((List.prefix_append_right_inj u).1 hstart)) _

theorem Balanced.enclose
    {u : List Call}
    (h : Balanced u)
    (label : String) :
    Balanced (.descend label :: (u ++ [.ascend])) where
  ended := by
    simp [List.countP_cons, List.countP_append, h.ended, Call.isDescent, Call.isAscent]
  begun := by
    intro start hstart
    rcases List.prefix_cons_iff.1 hstart with rfl | ⟨tail, rfl, htail⟩
    · exact Nat.le_refl _
    · rcases List.prefix_concat_iff.1 htail with rfl | hinner
      · simp [List.countP_cons, List.countP_append, h.ended, Call.isDescent, Call.isAscent]
      · have hbegun := h.begun tail hinner
        simp only [List.countP_cons, Call.isDescent, Call.isAscent, Bool.false_eq_true, if_false,
          if_true]
        omega

end Calls

end Outline
end Reckoner
