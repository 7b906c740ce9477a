import Reckoner.Proofs.Patterns
import Reckoner.Proofs.Piecewise

/-!
# How a text is cut

The law by which any text is cut into elements, whether it is an expression or not.  Symbols are the
digits and the marks.  Blanks are left out before the cutting, so that they neither end a run of
digits nor leave a trace.  Other characters are passed over when the cutting meets them, and end a
run of digits there.

The elements are the matches of a pattern, found one after another: at the first place where there
is one, the longest.  Nothing of the symbols is lost or told twice.  Two runs of digits follow each
other only where a character between them was passed over that is not blank; and only blanks stand
inside a run.

**Results.**
* `finds_cut`: the elements are the matches of their pattern.
* `flatten_cut`: the elements hold the symbols of the text, in order.
* `exists_foreigner_between`: what stands between two runs of digits.
* `not_stands_within`: what does not stand inside an element.
* `cutInto_unique`: a text is cut in one way only.
* `split_law`: the law for texts.
-/

namespace Reckoner

namespace Text

section Definitions

/-- The characters of elements: digits, letters, operators and brackets. -/
def symbols : List Char :=
  allDigits ++ allMarks

/-- What is left of a text when only its symbols are kept. -/
def kept (text : List Char) : List Char :=
  text.filter (· ∈ symbols)

/-- The character stands in the text behind some symbols and in front of the others. -/
def Stands (text before after : List Char) (c : Char) : Prop :=
  ∃ u v, text = u ++ c :: v ∧ kept u = before ∧ kept v = after

/-- The law by which a text is cut into elements. -/
structure CutInto (text : List Char) (elements : List (List Char)) : Prop where
  /-- Each element is a run of digits or a mark. -/
  parts : ∀ element ∈ elements, IsPart element
  /-- The symbols of the text are those of its elements. -/
  whole : elements.flatten = kept text
  /-- Between two runs of digits stands a character that is passed over. -/
  apart : ∀ before a b after,
    elements = before ++ a :: b :: after →
    IsRun a →
    IsRun b →
    ∃ c,
      c ∉ symbols ∧
      isBlank c = false ∧
      Stands text (before ++ [a]).flatten (b :: after).flatten c
  /-- Inside an element stand only blanks. -/
  joined : ∀ before u v after c,
    elements = before ++ (u ++ v) :: after →
    u ≠ [] →
    v ≠ [] →
    c ∉ symbols →
    Stands text (before.flatten ++ u) (v ++ after.flatten) c →
    isBlank c = true

/-- Digits in a row, or one mark. -/
def elementPattern : RegularExpression Char :=
  someOf allDigits + anyOf allMarks

/-- The matches that a pattern finds from left to right: the longest one at the first place where
there is one, and then those behind it. -/
inductive Finds (p : RegularExpression Char) : List Char → List (List Char) → Prop
  | nil :
      Finds p [] []
  | skip
      {c : Char} {rest : List Char} {found : List (List Char)}
      (hnone : ∀ u, u <+: c :: rest → u ∉ p.matches')
      (hrest : Finds p rest found) :
      Finds p (c :: rest) found
  | take
      {piece rest : List Char} {found : List (List Char)}
      (hmatch : piece ∈ p.matches')
      (hlongest : ∀ u, u <+: piece ++ rest → u ∈ p.matches' → u.length ≤ piece.length)
      (hrest : Finds p rest found) :
      Finds p (piece ++ rest) (piece :: found)

end Definitions

section Symbols

theorem mem_symbols_iff (c : Char) :
    c ∈ symbols ↔ c.isDigit = true ∨ isMark c = true := by
  rw [symbols, List.mem_append, mem_allDigits_iff, mem_allMarks_iff]

theorem not_mem_symbols
    {c : Char}
    (hdigit : c.isDigit = false)
    (hmark : isMark c = false) :
    c ∉ symbols := by
  rw [mem_symbols_iff, hdigit, hmark]
  simp

theorem isBlank_of_mem_symbols
    {c : Char}
    (h : c ∈ symbols) :
    isBlank c = false := by
  rcases (mem_symbols_iff c).1 h with hdigit | hmark
  · exact isBlank_of_isDigit hdigit
  · exact isBlank_of_isMark hmark

theorem mem_matches_elementPattern_iff (piece : List Char) :
    piece ∈ elementPattern.matches' ↔ IsPart piece := by
  rw [elementPattern, RegularExpression.matches'_add, Language.mem_add, mem_matches_someOf_iff,
    mem_matches_anyOf_iff]
  simp only [mem_allDigits_iff, mem_allMarks_iff, IsPart, IsRun]

theorem IsPart.ne_nil
    {part : List Char}
    (h : IsPart part) :
    part ≠ [] := by
  rcases h with hrun | ⟨c, _, rfl⟩
  · exact hrun.1
  · simp

theorem IsPart.isRun_of_append
    {u v : List Char}
    (h : IsPart (u ++ v))
    (hu : u ≠ [])
    (hv : v ≠ []) :
    IsRun (u ++ v) := by
  rcases h with hrun | ⟨c, _, hc⟩
  · exact hrun
  · have hlength := congrArg List.length hc
    have hpositiveU := List.length_pos_iff.2 hu
    have hpositiveV := List.length_pos_iff.2 hv
    simp only [List.length_append, List.length_cons, List.length_nil] at hlength
    omega

theorem IsPart.isRun_of_head
    {c : Char} {rest : List Char}
    (h : IsPart (c :: rest))
    (hc : c.isDigit = true) :
    IsRun (c :: rest) := by
  rcases h with hrun | ⟨d, hmark, hd⟩
  · exact hrun
  · obtain ⟨rfl, _⟩ := List.cons.inj hd
    rw [isDigit_of_isMark hmark] at hc
    cases hc

theorem kept_append (u v : List Char) :
    kept (u ++ v) = kept u ++ kept v :=
  List.filter_append u v

theorem kept_of_forall
    {text : List Char}
    (h : ∀ c ∈ text, c ∈ symbols) :
    kept text = text :=
  List.filter_eq_self.2 fun c hc => by simpa using h c hc

theorem kept_of_isRun
    {digits : List Char}
    (h : IsRun digits) :
    kept digits = digits :=
  kept_of_forall fun c hc => (mem_symbols_iff c).2 (.inl (h.2 c hc))

theorem kept_singleton_of_isMark
    {c : Char}
    (h : isMark c = true) :
    kept [c] = [c] :=
  kept_of_forall (List.forall_mem_singleton.2 ((mem_symbols_iff c).2 (.inr h)))

theorem kept_singleton_of_not_mem
    {c : Char}
    (h : c ∉ symbols) :
    kept [c] = [] :=
  List.filter_cons_of_neg (by simpa using h)

/-- No symbol is blank. -/
theorem kept_strip (text : List Char) :
    kept (strip text) = kept text := by
  rw [kept, strip, List.filter_filter]
  apply List.filter_congr
  intro c _
  by_cases hc : c ∈ symbols
  · simp [hc, isBlank_of_mem_symbols hc]
  · simp [hc]

variable {text before after : List Char} {c : Char}

theorem Stands.append
    (h : Stands text before after c)
    (u : List Char) :
    Stands (u ++ text) (kept u ++ before) after c := by
  obtain ⟨v, w, rfl, rfl, rfl⟩ := h
  exact ⟨u ++ v, w, by simp, kept_append u v, rfl⟩

/-- What stands between the symbols when blanks are left out also stands there with them. -/
theorem stands_of_strip (h : Stands (strip text) before after c) :
    Stands text before after c ∧ isBlank c = false := by
  obtain ⟨u, v, hstrip, rfl, rfl⟩ := h
  obtain ⟨u, rest, rfl, rfl, hrest⟩ := List.filter_eq_append_iff.1 hstrip
  obtain ⟨blanks, v, rfl, hblanks, hc, rfl⟩ := List.filter_eq_cons_iff.1 hrest
  have hnone : kept blanks = [] := by
    rw [kept, List.filter_eq_nil_iff]
    intro d hd
    have hblank : isBlank d = true := by simpa using hblanks d hd
    simp only [decide_eq_true_eq]
    intro hsymbol
    rw [isBlank_of_mem_symbols hsymbol] at hblank
    cases hblank
  refine ⟨⟨u ++ blanks, v, by simp, ?_, (kept_strip v).symm⟩, by simpa using hc⟩
  rw [kept_append, hnone, List.append_nil]
  exact (kept_strip u).symm

theorem Stands.strip
    (h : Stands text before after c)
    (hc : isBlank c = false) :
    Stands (strip text) before after c := by
  obtain ⟨u, v, rfl, rfl, rfl⟩ := h
  refine ⟨Text.strip u, Text.strip v, ?_, kept_strip u, kept_strip v⟩
  rw [strip_append, Text.strip, Text.strip, Text.strip, List.filter_cons_of_pos (by simp [hc])]

end Symbols

end Text

namespace Element

open Text

section Matches

/-- A run of digits is the longest match where it stands. -/
theorem length_le_of_isPart_of_run
    {digits rest u : List Char}
    (hrun : IsRun digits)
    (hrest : rest.head?.any Char.isDigit = false)
    (hu : u <+: digits ++ rest)
    (hpart : IsPart u) :
    u.length ≤ digits.length := by
  rcases List.prefix_or_prefix_of_prefix hu (List.prefix_append digits rest) with hshort | hlong
  · exact hshort.length_le
  · -- A longer match would go on with a digit.
    obtain ⟨v, rfl⟩ := hlong
    rw [List.prefix_append_right_inj] at hu
    obtain ⟨w, rfl⟩ := hu
    cases v with
    | nil =>
        simp
    | cons d v =>
        have hnot : d.isDigit = false := hrest
        have hdigits : IsRun (digits ++ d :: v) := hpart.isRun_of_append hrun.1 (by simp)
        rw [hdigits.2 d (by simp)] at hnot
        cases hnot

/-- A match that begins with a character that is no digit is that character alone. -/
theorem eq_singleton_of_isPart
    {c : Char} {rest u : List Char}
    (hc : c.isDigit = false)
    (hu : u <+: c :: rest)
    (hpart : IsPart u) :
    u = [c] ∧ isMark c = true := by
  rcases hpart with hrun | ⟨d, hmark, rfl⟩
  · obtain ⟨d, v, rfl⟩ := List.exists_cons_of_ne_nil hrun.1
    obtain ⟨rfl, _⟩ := List.cons_prefix_cons.1 hu
    rw [hrun.2 d (by simp)] at hc
    cases hc
  · obtain ⟨rfl, _⟩ := List.cons_prefix_cons.1 hu
    exact ⟨rfl, hmark⟩

/-- The pieces that characters are cut into are the matches of the pattern. -/
theorem finds_cut (chars : List Char) :
    Finds elementPattern chars (cut chars) := by
  induction chars using run_induction with
  | nil =>
      exact .nil
  | run digits rest hrun hrest ih =>
      rw [cut_digits_append hrun.1 hrun.2 hrest]
      refine .take ((mem_matches_elementPattern_iff digits).2 (.inl hrun)) ?_ ih
      intro u hu hmatch
      exact length_le_of_isPart_of_run hrun hrest hu ((mem_matches_elementPattern_iff u).1 hmatch)
  | other c rest hc ih =>
      cases hmark : isMark c with
      | true =>
          rw [cut_mark_cons hmark, ← List.singleton_append]
          refine .take ((mem_matches_elementPattern_iff [c]).2 (.inr ⟨c, hmark, rfl⟩)) ?_ ih
          intro u hu hmatch
          obtain ⟨rfl, _⟩ :=
            eq_singleton_of_isPart hc hu ((mem_matches_elementPattern_iff u).1 hmatch)
          exact Nat.le_refl 1
      | false =>
          rw [cut_other_cons hc hmark]
          refine .skip ?_ ih
          intro u hu hmatch
          obtain ⟨_, hother⟩ :=
            eq_singleton_of_isPart hc hu ((mem_matches_elementPattern_iff u).1 hmatch)
          rw [hmark] at hother
          cases hother

end Matches

section Borders

variable {chars a b : List Char} {before after : List (List Char)}

/-- The pieces hold the symbols, in their order, and nothing else. -/
theorem flatten_cut (chars : List Char) :
    (cut chars).flatten = kept chars := by
  induction chars using run_induction with
  | nil =>
      rfl
  | run digits rest hrun hrest ih =>
      rw [cut_digits_append hrun.1 hrun.2 hrest, List.flatten_cons, ih, kept_append,
        kept_of_isRun hrun]
  | other c rest hc ih =>
      rw [← List.singleton_append, kept_append, ← ih]
      cases hmark : isMark c with
      | true =>
          rw [kept_singleton_of_isMark hmark, List.singleton_append, cut_mark_cons hmark,
            List.flatten_cons]
      | false =>
          rw [kept_singleton_of_not_mem (not_mem_symbols hc hmark), List.singleton_append,
            cut_other_cons hc hmark]
          rfl

/-- A run of digits that follows another one is cut off behind a character that was passed over. -/
theorem exists_foreigner_in_front
    {rest : List Char}
    (hrest : rest.head?.any Char.isDigit = false)
    (hcut : cut rest = b :: after)
    (hb : IsRun b) :
    ∃ c, c ∉ symbols ∧ Stands rest [] (b :: after).flatten c := by
  cases rest with
  | nil =>
      cases hcut
  | cons c rest =>
      have hc : c.isDigit = false := hrest
      cases hmark : isMark c with
      | true =>
          rw [cut_mark_cons hmark] at hcut
          obtain ⟨rfl, _⟩ := List.cons.inj hcut
          exact absurd hb (not_isRun_of_isMark hmark)
      | false =>
          rw [cut_other_cons hc hmark] at hcut
          refine ⟨c, not_mem_symbols hc hmark, [], rest, rfl, rfl, ?_⟩
          rw [← flatten_cut, hcut]

/-- Two runs of digits follow each other only where a character between them was passed over. -/
theorem exists_foreigner_between
    (hcut : cut chars = before ++ a :: b :: after)
    (ha : IsRun a)
    (hb : IsRun b) :
    ∃ c, c ∉ symbols ∧ Stands chars (before ++ [a]).flatten (b :: after).flatten c := by
  induction chars using run_induction generalizing before with
  | nil =>
      simp [cut] at hcut
  | run digits rest hrun hrest ih =>
      rw [cut_digits_append hrun.1 hrun.2 hrest, List.cons_eq_append_iff] at hcut
      rcases hcut with ⟨rfl, hcut⟩ | ⟨before, rfl, hcut⟩
      · obtain ⟨rfl, hnext⟩ := List.cons.inj hcut
        obtain ⟨c, hc, hstands⟩ := exists_foreigner_in_front hrest hnext.symm hb
        have hmore := hstands.append a
        rw [kept_of_isRun hrun] at hmore
        exact ⟨c, hc, by simpa using hmore⟩
      · obtain ⟨c, hc, hstands⟩ := ih hcut
        have hmore := hstands.append digits
        rw [kept_of_isRun hrun] at hmore
        exact ⟨c, hc, hmore⟩
  | other c rest hc ih =>
      cases hmark : isMark c with
      | true =>
          rw [cut_mark_cons hmark, List.cons_eq_append_iff] at hcut
          rcases hcut with ⟨rfl, hcut⟩ | ⟨before, rfl, hcut⟩
          · obtain ⟨rfl, _⟩ := List.cons.inj hcut
            exact absurd ha (not_isRun_of_isMark hmark)
          · obtain ⟨d, hd, hstands⟩ := ih hcut
            have hmore := hstands.append [c]
            rw [kept_singleton_of_isMark hmark] at hmore
            exact ⟨d, hd, hmore⟩
      | false =>
          rw [cut_other_cons hc hmark] at hcut
          obtain ⟨d, hd, hstands⟩ := ih hcut
          have hmore := hstands.append [c]
          rw [kept_singleton_of_not_mem (not_mem_symbols hc hmark)] at hmore
          exact ⟨d, hd, hmore⟩

/-- Inside a piece no character was passed over. -/
theorem not_stands_within
    {u v : List Char} {c : Char}
    (hcut : cut chars = before ++ (u ++ v) :: after)
    (hu : u ≠ [])
    (hv : v ≠ [])
    (hc : c ∉ symbols) :
    ¬ Stands chars (before.flatten ++ u) (v ++ after.flatten) c := by
  rintro ⟨left, right, rfl, hleft, hright⟩
  rw [mem_symbols_iff, not_or, Bool.not_eq_true, Bool.not_eq_true] at hc
  -- The two sides of the character are cut apart, and neither has the whole piece.
  have hhead : (c :: right).head?.any Char.isDigit = false := hc.1
  have hparted : Parted left (c :: right) := parted_of_head hhead left
  rw [cut_append hparted, cut_other_cons hc.1 hc.2] at hcut
  rw [← flatten_cut] at hleft hright
  have hpositiveU := List.length_pos_iff.2 hu
  have hpositiveV := List.length_pos_iff.2 hv
  rcases List.append_eq_append_iff.1 hcut with ⟨more, hbefore, _⟩ | ⟨more, hcutleft, hmore⟩
  · have hlength := congrArg List.length hleft
    rw [hbefore, List.flatten_append] at hlength
    simp only [List.length_append] at hlength
    omega
  · rw [hcutleft, List.flatten_append, List.append_cancel_left_eq] at hleft
    cases more with
    | nil =>
        exact hu hleft.symm
    | cons piece more =>
        obtain ⟨rfl, _⟩ := List.cons.inj hmore
        have hlength := congrArg List.length hleft
        simp only [List.flatten_cons, List.length_append] at hlength
        omega

end Borders

section Law

variable {text : List Char} {a b : List (List Char)}

/-- What characters are cut into after the blanks are left out. -/
theorem cutInto_cut_strip (text : List Char) :
    CutInto text (cut (strip text)) := by
  refine ⟨fun element => isPart_of_mem_cut, ?_, ?_, ?_⟩
  · rw [flatten_cut, kept_strip]
  · intro before a b after hcut ha hb
    obtain ⟨c, hc, hstands⟩ := exists_foreigner_between hcut ha hb
    obtain ⟨hstands, hblank⟩ := stands_of_strip hstands
    exact ⟨c, hc, hblank, hstands⟩
  · intro before u v after c hcut hu hv hc hstands
    by_contra hblank
    exact not_stands_within hcut hu hv hc (hstands.strip (by simpa using hblank))

/-- An element cannot be longer than the one that another cut has in its place. -/
theorem not_longer
    {before xs ys : List (List Char)} {y w : List Char}
    (ha : CutInto text (before ++ (y ++ w) :: xs))
    (hb : CutInto text (before ++ y :: ys))
    (hrest : ys.flatten = w ++ xs.flatten) :
    w = [] := by
  by_contra hw
  have hne : y ≠ [] := (hb.parts y (by simp)).ne_nil
  have hrun : IsRun (y ++ w) := (ha.parts (y ++ w) (by simp)).isRun_of_append hne hw
  have hrunY : IsRun y := ⟨hne, fun c hc => hrun.2 c (List.mem_append_left w hc)⟩
  obtain ⟨d, w, rfl⟩ := List.exists_cons_of_ne_nil hw
  cases ys with
  | nil =>
      cases hrest
  | cons z zs =>
      -- The element after `y` begins with a digit of the longer one.
      obtain ⟨c, z, rfl⟩ := List.exists_cons_of_ne_nil (hb.parts z (by simp)).ne_nil
      obtain ⟨rfl, _⟩ := List.cons.inj hrest
      have hrunZ : IsRun (c :: z) :=
        (hb.parts (c :: z) (by simp)).isRun_of_head (hrun.2 c (by simp))
      obtain ⟨e, he, hblank, hstands⟩ := hb.apart before y (c :: z) zs rfl hrunY hrunZ
      rw [hrest, List.flatten_append, List.flatten_singleton] at hstands
      rw [ha.joined before y (c :: w) xs e rfl hne hw he hstands] at hblank
      cases hblank

/-- The law leaves no choice. -/
theorem cutInto_unique
    {before : List (List Char)}
    (ha : CutInto text (before ++ a))
    (hb : CutInto text (before ++ b)) :
    a = b := by
  have hflatten : a.flatten = b.flatten := by
    have hwhole : (before ++ a).flatten = (before ++ b).flatten := ha.whole.trans hb.whole.symm
    simpa using hwhole
  induction a generalizing before b with
  | nil =>
      cases b with
      | nil =>
          rfl
      | cons y ys =>
          have hne : y ≠ [] := (hb.parts y (by simp)).ne_nil
          exact absurd (List.append_eq_nil_iff.1 hflatten.symm).1 hne
  | cons x xs ih =>
      cases b with
      | nil =>
          have hne : x ≠ [] := (ha.parts x (by simp)).ne_nil
          exact absurd (List.append_eq_nil_iff.1 hflatten).1 hne
      | cons y ys =>
          have hsame : x = y := by
            rcases List.append_eq_append_iff.1 hflatten with ⟨w, rfl, hrest⟩ | ⟨w, rfl, hrest⟩
            · rw [not_longer hb ha hrest, List.append_nil]
            · rw [not_longer ha hb hrest, List.append_nil]
          subst hsame
          have hstep : ∀ list : List (List Char), before ++ x :: list = before ++ [x] ++ list := by
            intro list
            rw [List.append_assoc, List.singleton_append]
          rw [hstep] at ha hb
          rw [ih ha hb (List.append_cancel_left hflatten)]

end Law

section Texts

theorem map_toList_split (text : String) :
    (split text).map String.toList = cut (strip text.toList) := by
  have hid : String.toList ∘ String.ofList = id := funext fun _ => String.toList_ofList
  rw [split, List.map_map, hid, List.map_id]

theorem toList_join_split (text : String) :
    (String.join (split text)).toList = kept text.toList := by
  rw [String.toList_join, List.flatMap_def, map_toList_split, flatten_cut, kept_strip]

/-- The elements of a text, put together, are cut into the same elements, if no character was passed
over. -/
theorem split_join_split
    {text : String}
    (h : ∀ c ∈ text.toList, c ∈ symbols ∨ isBlank c = true) :
    split (String.join (split text)) = split text := by
  have hstrip : strip (kept text.toList) = strip text.toList := by
    rw [strip, strip, kept, List.filter_filter]
    apply List.filter_congr
    intro c hc
    rcases h c hc with hsymbol | hblank
    · simp [hsymbol]
    · simp [hblank]
  rw [split, toList_join_split, hstrip]
  rfl

end Texts

/-- The elements of a text are the only ones that obey the law of cutting: each is a run of digits or
a mark; together they hold the symbols of the text, in order; two runs of digits follow each other
only where a character stands between them that is neither a symbol nor blank, and no such character
stands inside an element.  They are the matches of the pattern in the text without its blanks.  So
blanks make no difference, wherever they are put in or taken out; and the elements of a text of
symbols and blanks, put together, are cut into the same elements again. -/
theorem split_law (text : String) :
    (∀ elements, CutInto text.toList elements ↔ (split text).map String.toList = elements)
      ∧
    Finds elementPattern (strip text.toList) ((split text).map String.toList)
      ∧
    (∀ other : String,
      strip text.toList = strip other.toList →
      split text = split other)
      ∧
    ((∀ c ∈ text.toList, c ∈ symbols ∨ isBlank c = true) →
      split (String.join (split text)) = split text) := by
  have hlaw : CutInto text.toList ((split text).map String.toList) := by
    rw [map_toList_split]
    exact cutInto_cut_strip text.toList
  refine ⟨?_, ?_, ?_, split_join_split⟩
  · intro elements
    constructor
    · intro h
      rw [← List.nil_append elements] at h
      exact cutInto_unique hlaw h
    · rintro rfl
      exact hlaw
  · rw [map_toList_split]
    exact finds_cut _
  · intro other hsame
    rw [split, split, hsame]

/-- Digits are joined across blanks, but not across a character that is passed over. -/
theorem split_law_passed_over :
    split "4 7_\u20031é2*" = ["47", "1", "2", "*"] ∧
    CutInto "4 7_\u20031é2*".toList [['4', '7'], ['1'], ['2'], ['*']] ∧
    strip "4 7_\u20031é2*".toList = strip "47_1é\t2 *".toList ∧
    split "47_1é\t2 *" = ["47", "1", "2", "*"] ∧
    split (String.join (split "1 2+ a")) = ["12", "+", "a"] := by
  have hfirst : split "4 7_\u20031é2*" = ["47", "1", "2", "*"] := by
    decide
  have hsame : strip "4 7_\u20031é2*".toList = strip "47_1é\t2 *".toList := by
    decide
  obtain ⟨hlaw, _, hblanks, _⟩ := split_law "4 7_\u20031é2*"
  have hadmissible : ∀ c ∈ "1 2+ a".toList, c ∈ symbols ∨ isBlank c = true := by
    rw [← List.forall_iff_forall_mem]
    decide
  obtain ⟨_, _, _, hagain⟩ := split_law "1 2+ a"
  refine ⟨hfirst, (hlaw _).2 ?_, hsame, ?_, ?_⟩
  · rw [hfirst]
    rfl
  · rw [← hblanks _ hsame, hfirst]
  · rw [hagain hadmissible]
    decide

end Element

end Reckoner
