import Mathlib.Data.List.SplitBy
import Reckoner.Proofs.Elements

/-!
# The parts of a text

A text is admissible if it is not empty and keeps to the characters of expressions.  Its parts
are what its spaces leave: each maximal run of digits, and each other character by itself.  Parts
are told here without the look ahead of the cutting, by where two neighbours come apart; an
admissible text is cut into exactly these.

**Results.**
* `check_eq_ok_iff`: the check accepts the admissible texts.
* `run_induction`: induction on a text by its maximal runs of digits.
* `isPart_of_mem_cut`: every element is a run of digits or a single mark.
* `cut_strip_of_admissible`: an admissible text is cut into its parts.
-/

namespace Reckoner

namespace Text

section Definitions

/-- A character that an expression may be written with. -/
def Permitted (c : Char) : Prop :=
  ('0' ≤ c ∧ c ≤ '9') ∨ ('a' ≤ c ∧ c ≤ 'z') ∨ c ∈ ['+', '-', '*', '(', ')', ' ']

structure Admissible (text : String) : Prop where
  nonempty : text ≠ ""
  permitted : ∀ c ∈ text.toList, Permitted c

/-- Two digits in a row belong to one number. -/
def joined (c d : Char) : Bool :=
  c.isDigit && d.isDigit

/-- The border between two pieces of a text does not lie between two digits. -/
def Parted (u v : List Char) : Prop :=
  ∀ c ∈ u.getLast?, ∀ d ∈ v.head?, joined c d = false

/-- The maximal runs of digits and the other characters of a text, spaces left out. -/
def parts (text : String) : List (List Char) :=
  (text.toList.filter (· ≠ ' ')).splitBy joined

/-- One digit or more. -/
def IsRun (part : List Char) : Prop :=
  part ≠ [] ∧ ∀ c ∈ part, c.isDigit = true

/-- A run of digits or a single mark. -/
def IsPart (part : List Char) : Prop :=
  IsRun part ∨ ∃ c, isMark c = true ∧ part = [c]

/-- If the part is a run of digits, it denotes a number in range. -/
def Fits (part : List Char) : Prop :=
  IsRun part → Decimal.value part ≤ 2147483647

/-- The first run of digits in the text that denotes too great a number. -/
def FirstTooGreat (text : String) (run : List Char) : Prop :=
  ∃ before after,
    parts text = before ++ run :: after ∧
    (∀ part ∈ before, Fits part) ∧
    IsRun run ∧
    2147483647 < Decimal.value run

end Definitions

section Checking

theorem inAlphabet_iff (c : Char) :
    inAlphabet c = true ↔ Permitted c := by
  have hdigit : c.isDigit = true ↔ '0' ≤ c ∧ c ≤ '9' := Char.isDigit_iff_toNat
  simp only [inAlphabet, isMark, Permitted, Bool.or_eq_true, hdigit, isLower_iff, beq_iff_eq,
    List.mem_cons, List.not_mem_nil, or_false, or_assoc]

theorem check_eq_ok_iff (text : String) :
    check text = .ok () ↔ Admissible text := by
  unfold check
  constructor
  · intro h
    split at h
    · cases h
    next hempty =>
      split at h
      next hall =>
        refine ⟨?_, ?_⟩
        · rintro rfl
          exact hempty rfl
        · intro c hc
          exact (inAlphabet_iff c).1 (List.all_eq_true.1 hall c hc)
      next =>
        cases h
  · rintro ⟨hnonempty, hpermitted⟩
    have hempty : text.toList.isEmpty = false := by
      simpa using hnonempty
    have hall : text.toList.all inAlphabet = true :=
      List.all_eq_true.2 fun c hc => (inAlphabet_iff c).2 (hpermitted c hc)
    simp [hempty, hall]

theorem check_eq_error
    {text : String} {failure : Failure}
    (h : check text = .error failure) :
    failure = .empty ∨ ∃ found, failure = .foreign found text := by
  unfold check at h
  split at h
  · cases h
    exact .inl rfl
  split at h
  · cases h
  · cases h
    exact .inr ⟨_, rfl⟩

end Checking

section Runs

theorem not_isRun_of_isMark
    {c : Char}
    (h : isMark c = true) :
    ¬ IsRun [c] := by
  intro hrun
  have hdigit : c.isDigit = true := hrun.2 c (by simp)
  rw [isDigit_of_isMark h] at hdigit
  cases hdigit

/-- Characters are taken off in front: a maximal run of digits at a time, and any other
character by itself. -/
theorem run_induction
    {motive : List Char → Prop}
    (nil : motive [])
    (run : ∀ digits rest,
      IsRun digits →
      rest.head?.any Char.isDigit = false →
      motive rest →
      motive (digits ++ rest))
    (other : ∀ c rest, c.isDigit = false → motive rest → motive (c :: rest))
    (chars : List Char) :
    motive chars := by
  -- Taking off a run removes many characters at once, so the induction is on the length.
  induction hlength : chars.length using Nat.strong_induction_on generalizing chars with
  | _ n ih =>
    cases chars with
    | nil =>
        exact nil
    | cons c rest =>
        subst hlength
        cases hc : c.isDigit with
        | false =>
            exact other c rest hc (ih rest.length (by simp) rest rfl)
        | true =>
            have hsplit :
                c :: rest = (c :: rest.takeWhile Char.isDigit) ++ rest.dropWhile Char.isDigit := by
              rw [List.cons_append, List.takeWhile_append_dropWhile]
            have hrun : IsRun (c :: rest.takeWhile Char.isDigit) := by
              refine ⟨by simp, ?_⟩
              intro d hd
              rcases List.mem_cons.1 hd with rfl | hd
              · exact hc
              · exact List.all_eq_true.1 List.all_takeWhile d hd
            have hend : (rest.dropWhile Char.isDigit).head?.any Char.isDigit = false := by
              have hnot := List.head?_dropWhile_not Char.isDigit rest
              split at hnot
              next d hd =>
                rw [hd]
                exact hnot
              next hnone =>
                rw [hnone]
                rfl
            have hshorter : (rest.dropWhile Char.isDigit).length < (c :: rest).length :=
              Nat.lt_succ_of_le (List.dropWhile_sublist _).length_le
            rw [hsplit]
            exact run _ _ hrun hend (ih _ hshorter _ rfl)

theorem isChain_joined
    {digits : List Char}
    (h : ∀ c ∈ digits, c.isDigit = true) :
    digits.IsChain fun c d => joined c d = true := by
  apply List.Pairwise.isChain
  apply List.pairwise_of_forall_mem_list
  intro c hc d hd
  rw [joined, h c hc, h d hd, Bool.and_self]

theorem parted_of_head
    {v : List Char}
    (h : v.head?.any Char.isDigit = false)
    (u : List Char) :
    Parted u v := by
  intro c _ d hd
  rw [Option.mem_def] at hd
  rw [hd] at h
  rw [joined, show d.isDigit = false from h, Bool.and_false]

theorem parted_of_getLast
    {c : Char}
    (h : c.isDigit = false)
    (u v : List Char) :
    Parted (u ++ [c]) v := by
  intro d hd e _
  obtain rfl : c = d := by simpa using hd
  rw [joined, h, Bool.false_and]

/-- Neighbouring parts are not both runs of digits. -/
theorem isChain_parts (text : String) :
    (parts text).IsChain fun a b => ¬ (IsRun a ∧ IsRun b) := by
  apply (List.isChain_getLast_head_splitBy joined _).imp
  rintro a b ⟨ha, hb, hapart⟩ ⟨hrunA, hrunB⟩
  rw [joined, hrunA.2 _ (List.getLast_mem ha), hrunB.2 _ (List.head_mem hb)] at hapart
  cases hapart

end Runs

end Text

namespace Element

open Text

theorem cut_other_cons
    {c : Char}
    (hdigit : c.isDigit = false)
    (hmark : isMark c = false)
    (rest : List Char) :
    cut (c :: rest) = cut rest := by
  simp [cut, hdigit, hmark]

/-- Every element that is cut is a run of digits or a single mark. -/
theorem isPart_of_mem_cut
    {chars part : List Char}
    (h : part ∈ cut chars) :
    IsPart part := by
  induction chars using run_induction with
  | nil =>
      cases h
  | run digits rest hrun hrest ih =>
      rw [cut_digits_append hrun.1 hrun.2 hrest] at h
      rcases List.mem_cons.1 h with rfl | h
      · exact .inl hrun
      · exact ih h
  | other c rest hc ih =>
      cases hmark : isMark c with
      | false =>
          rw [cut_other_cons hc hmark] at h
          exact ih h
      | true =>
          rw [cut_mark_cons hmark] at h
          rcases List.mem_cons.1 h with rfl | h
          · exact .inr ⟨c, hmark, rfl⟩
          · exact ih h

/-- Digits and marks are cut wherever two neighbours are not both digits. -/
theorem cut_eq_splitBy
    {chars : List Char}
    (h : ∀ c ∈ chars, c.isDigit = true ∨ isMark c = true) :
    cut chars = chars.splitBy joined := by
  induction chars using run_induction with
  | nil =>
      rfl
  | run digits rest hrun hrest ih =>
      have happart : Parted digits rest := parted_of_head hrest digits
      have hwhole : digits.splitBy joined = [digits] :=
        List.splitBy_of_isChain hrun.1 (isChain_joined hrun.2)
      rw [cut_digits_append hrun.1 hrun.2 hrest, List.splitBy_append happart, hwhole,
        ih fun c hc => h c (List.mem_append_right digits hc)]
      rfl
  | other c rest hc ih =>
      have hmark : isMark c = true := by
        rcases h c (by simp) with hdigit | hmark
        · rw [hc] at hdigit
          cases hdigit
        · exact hmark
      have happart : Parted [c] rest := parted_of_getLast hc [] rest
      rw [cut_mark_cons hmark, ih fun d hd => h d (List.mem_cons_of_mem c hd)]
      exact (List.splitBy_append (l := [c]) happart).symm

end Element

namespace Text

section Admissible

variable {text : String}

theorem isDigit_or_isMark_of_permitted
    {c : Char}
    (h : Permitted c)
    (hspace : c ≠ ' ') :
    c.isDigit = true ∨ isMark c = true := by
  have halphabet : inAlphabet c = true := (inAlphabet_iff c).2 h
  simpa [inAlphabet, hspace] using halphabet

/-- The spaces are the only blanks of an admissible text. -/
theorem strip_of_admissible
    (h : Admissible text) :
    strip text.toList = text.toList.filter (· ≠ ' ') := by
  apply List.filter_congr
  intro c hc
  by_cases hspace : c = ' '
  · subst hspace
    decide
  · rcases isDigit_or_isMark_of_permitted (h.permitted c hc) hspace with hdigit | hmark
    · simp [isBlank_of_isDigit hdigit, hspace]
    · simp [isBlank_of_isMark hmark, hspace]

theorem cut_strip_of_admissible
    (h : Admissible text) :
    Element.cut (strip text.toList) = parts text := by
  rw [strip_of_admissible h]
  apply Element.cut_eq_splitBy
  intro c hc
  obtain ⟨hmem, hspace⟩ := List.mem_filter.1 hc
  exact isDigit_or_isMark_of_permitted (h.permitted c hmem) (by simpa using hspace)

theorem isPart_of_mem_parts
    (h : Admissible text)
    {part : List Char}
    (hpart : part ∈ parts text) :
    IsPart part := by
  rw [← cut_strip_of_admissible h] at hpart
  exact Element.isPart_of_mem_cut hpart

theorem Admissible.append
    {other : String}
    (h : Admissible text)
    (hother : Admissible other) :
    Admissible (text ++ other) := by
  constructor
  · intro hempty
    exact h.nonempty (String.append_eq_empty_iff.1 hempty).1
  · intro c hc
    rw [String.toList_append] at hc
    rcases List.mem_append.1 hc with hc | hc
    · exact h.permitted c hc
    · exact hother.permitted c hc

end Admissible

end Text

end Reckoner
