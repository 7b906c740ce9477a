import Reckoner.Proofs.Patterns

/-!
# Characters outside the alphabet

A text is accepted by a pattern for the whole of it, one permitted character or more, and refused
with the characters that another class leaves over.  The two must not drift apart: a text that the
pattern refuses would be blamed on no character, or on one that is permitted.

Each character that is blamed is blamed once.  The order is that of the places where the characters
are found first, whatever follows there.

**Results.**
* `mem_matches_pattern_iff`: the texts that the pattern matches.
* `pairwise_appearsBefore_eraseDups`: erasing duplicates keeps the order of first appearance.
* `foreigners_eq_nil_iff`: when no character is left over.
* `check_blames_foreigners`: acceptance, and what a refusal says.
-/

namespace Reckoner
namespace Text

section Definitions

/-- The characters that an expression may be written with. -/
def alphabet : List Char :=
  allDigits ++ allMarks ++ [' ']

/-- One character of the alphabet or more, and nothing before or after them. -/
def pattern : RegularExpression Char :=
  someOf alphabet

/-- In the list, the first place of `a` is before that of `b`. -/
def AppearsBefore (list : List Char) (a b : Char) : Prop :=
  list.idxOf a < list.idxOf b

/-- A character between single quotes. -/
def inQuotes (c : Char) : String :=
  "'" ++ String.singleton c ++ "'"

end Definitions

section Acceptance

theorem mem_alphabet_iff (c : Char) :
    c ∈ alphabet ↔ Permitted c := by
  rw [← inAlphabet_iff, alphabet, List.mem_append, List.mem_append, mem_allDigits_iff,
    mem_allMarks_iff, List.mem_singleton]
  simp only [inAlphabet, Bool.or_eq_true, beq_iff_eq]

/-- The pattern matches the texts that are not empty and keep to the alphabet. -/
theorem mem_matches_pattern_iff (text : String) :
    text.toList ∈ pattern.matches' ↔ Admissible text := by
  rw [pattern, mem_matches_someOf_iff]
  simp only [mem_alphabet_iff]
  constructor
  · rintro ⟨hne, hpermitted⟩
    exact ⟨by simpa using hne, hpermitted⟩
  · rintro ⟨hnonempty, hpermitted⟩
    exact ⟨by simpa using hnonempty, hpermitted⟩

end Acceptance

section Order

/-- What is left out of a list does not change the order of what is kept. -/
theorem appearsBefore_of_filter
    {p : Char → Bool} {list : List Char} {a b : Char}
    (ha : p a = true)
    (hb : p b = true)
    (h : AppearsBefore (list.filter p) a b) :
    AppearsBefore list a b := by
  unfold AppearsBefore at h ⊢
  induction list with
  | nil =>
      exact h
  | cons c rest ih =>
      rw [List.idxOf_cons, List.idxOf_cons]
      by_cases hc : p c = true
      · rw [List.filter_cons_of_pos hc, List.idxOf_cons, List.idxOf_cons] at h
        cases hca : c == a with
        | true =>
            cases hcb : c == b with
            | true =>
                simp [hca, hcb] at h
            | false =>
                exact Nat.succ_pos _
        | false =>
            cases hcb : c == b with
            | true =>
                simp [hca, hcb] at h
            | false =>
                simp only [hca, hcb, cond_false, Nat.add_lt_add_iff_right] at h ⊢
                exact ih h
      · have hca : (c == a) = false := by
          rw [beq_eq_false_iff_ne]
          rintro rfl
          exact hc ha
        have hcb : (c == b) = false := by
          rw [beq_eq_false_iff_ne]
          rintro rfl
          exact hc hb
        rw [List.filter_cons_of_neg hc] at h
        rw [hca, hcb]
        exact Nat.succ_lt_succ (ih h)

/-- Erasing duplicates keeps the first of each character, in their order. -/
theorem pairwise_appearsBefore_eraseDups (list : List Char) :
    list.eraseDups.Pairwise (AppearsBefore list) := by
  -- The head is erased from the whole rest at once, so the induction is on the length.
  induction hlength : list.length using Nat.strong_induction_on generalizing list with
  | _ n ih =>
    cases list with
    | nil =>
        exact List.Pairwise.nil
    | cons c rest =>
        subst hlength
        have hshorter : (rest.filter fun d => !d == c).length < (c :: rest).length :=
          Nat.lt_succ_of_le (List.length_filter_le _ _)
        have hother : ∀ d ∈ (rest.filter fun d => !d == c).eraseDups, (!d == c) = true :=
          fun d hd => (List.mem_filter.1 (List.mem_eraseDups.1 hd)).2
        rw [List.eraseDups_cons, List.pairwise_cons]
        refine ⟨?_, (ih _ hshorter _ rfl).imp_of_mem ?_⟩
        · intro d hd
          have hne : (c == d) = false := by
            rw [Bool.beq_comm]
            simpa using hother d hd
          simp [AppearsBefore, List.idxOf_cons, hne]
        · intro a b ha hb hab
          have hkept :
              AppearsBefore ((c :: rest).filter fun d => !d == c) a b := by
            rwa [List.filter_cons_of_neg (by simp)]
          exact appearsBefore_of_filter (hother a ha) (hother b hb) hkept

end Order

section Blame

theorem mem_foreigners_iff
    {text : List Char} {c : Char} :
    c ∈ foreigners text ↔ c ∈ text ∧ ¬ Permitted c := by
  rw [foreigners, List.mem_eraseDups, List.mem_filter, ← inAlphabet_iff, Bool.not_eq_true,
    Bool.not_eq_true']

theorem pairwise_foreigners (text : List Char) :
    (foreigners text).Pairwise (AppearsBefore text) := by
  apply (pairwise_appearsBefore_eraseDups _).imp_of_mem
  intro a b ha hb hab
  have hkept : ∀ c ∈ foreigners text, (!inAlphabet c) = true :=
    fun c hc => (List.mem_filter.1 (List.mem_eraseDups.1 hc)).2
  exact appearsBefore_of_filter (hkept a ha) (hkept b hb) hab

/-- No character is left over exactly if the text keeps to the alphabet. -/
theorem foreigners_eq_nil_iff (text : List Char) :
    foreigners text = [] ↔ ∀ c ∈ text, Permitted c := by
  rw [List.eq_nil_iff_forall_not_mem]
  simp only [mem_foreigners_iff, not_and, not_not]

theorem check_eq_foreign
    {text : String} {failure : Failure}
    (hnonempty : text ≠ "")
    (h : check text = .error failure) :
    failure = .foreign (foreigners text.toList) text ∧ foreigners text.toList ≠ [] := by
  have hrefused : ¬ Admissible text := by
    rw [← check_eq_ok_iff, h]
    simp
  have hfound : foreigners text.toList ≠ [] := by
    rw [ne_eq, foreigners_eq_nil_iff]
    exact fun hpermitted => hrefused ⟨hnonempty, hpermitted⟩
  refine ⟨?_, hfound⟩
  unfold check at h
  split at h
  next hempty =>
    exact absurd (by simpa using hempty) hnonempty
  split at h
  · cases h
  · cases h
    rfl

/-- The first quoted character stands by itself, and a comma before each of the others. -/
theorem quoted_cons (c : Char) (rest : List Char) :
    Failure.quoted (c :: rest) =
      inQuotes c ++ String.join (rest.map fun d => ", " ++ inQuotes d) := by
  induction rest generalizing c with
  | nil =>
      simp [Failure.quoted, inQuotes]
  | cons d rest ih =>
      have hcons : Failure.quoted (c :: d :: rest) =
          inQuotes c ++ ", " ++ Failure.quoted (d :: rest) := String.intercalate_cons_cons
      rw [hcons, ih, List.map_cons, String.join_cons, String.append_assoc, String.append_assoc]

theorem message_foreign
    (found : List Char)
    (text : String) :
    (Failure.foreign found text).message =
      "Invalid input: Invalid characters " ++ Failure.quoted found ++ " in expression '" ++ text ++
        "'. Allowed characters are: a-z, 0-9, + - *, ( ) and spaces" := by
  have hend :
      "'. " ++ Failure.alphabetReminder =
        "'. Allowed characters are: a-z, 0-9, + - *, ( ) and spaces" := by
    rfl
  rw [← hend, ← String.append_assoc]
  rfl

end Blame

/-- A text is accepted exactly if it is not empty and keeps to the alphabet, which is what the
pattern says.  If another text is refused that is not empty, then it is blamed on at least one
character; the characters blamed are those of the text that are not permitted, in the order in which
they appear first; and the message quotes each of them once, and the text as it is. -/
theorem check_blames_foreigners (text : String) :
    (check text = .ok () ↔ Admissible text)
      ∧
    (check text = .ok () ↔ text.toList ∈ pattern.matches')
      ∧
    ∀ failure,
      text ≠ "" →
      check text = .error failure →
      ∃ first rest,
        failure = .foreign (first :: rest) text ∧
        (∀ c, c ∈ first :: rest ↔ c ∈ text.toList ∧ ¬ Permitted c) ∧
        (first :: rest).Pairwise (AppearsBefore text.toList) ∧
        failure.message =
          "Invalid input: Invalid characters " ++
            (inQuotes first ++ String.join (rest.map fun c => ", " ++ inQuotes c)) ++
            " in expression '" ++ text ++
            "'. Allowed characters are: a-z, 0-9, + - *, ( ) and spaces" := by
  refine ⟨check_eq_ok_iff text, ?_, ?_⟩
  · rw [check_eq_ok_iff, mem_matches_pattern_iff]
  · intro failure hnonempty h
    obtain ⟨rfl, hfound⟩ := check_eq_foreign hnonempty h
    obtain ⟨first, rest, hlist⟩ := List.exists_cons_of_ne_nil hfound
    refine ⟨first, rest, by rw [hlist], ?_, ?_, ?_⟩
    · intro c
      rw [← hlist, mem_foreigners_iff]
    · rw [← hlist]
      exact pairwise_foreigners text.toList
    · rw [hlist, ← quoted_cons]
      exact message_foreign (first :: rest) text

/-- The capital letter is found twice, and the tabulator is not the space. -/
theorem check_blames_foreigners_repeated :
    "3X/X\t+ äb" ≠ "" ∧
    check "3X/X\t+ äb" = .error (.foreign ['X', '/', '\t', 'ä'] "3X/X\t+ äb") ∧
    ¬ Admissible "3X/X\t+ äb" ∧
    (Failure.foreign ['X', '/', '\t', 'ä'] "3X/X\t+ äb").message =
      "Invalid input: Invalid characters 'X', '/', '\t', 'ä' in expression '3X/X\t+ äb'. " ++
        "Allowed characters are: a-z, 0-9, + - *, ( ) and spaces" := by
  have hnonempty : "3X/X\t+ äb" ≠ "" := by
    decide
  have hrefused :
      check "3X/X\t+ äb" = .error (.foreign ['X', '/', '\t', 'ä'] "3X/X\t+ äb") := by
    rfl
  obtain ⟨haccepts, _, hblames⟩ := check_blames_foreigners "3X/X\t+ äb"
  refine ⟨hnonempty, hrefused, ?_, ?_⟩
  · rw [← haccepts, hrefused]
    simp
  · obtain ⟨first, rest, hfound, _, _, hmessage⟩ := hblames _ hnonempty hrefused
    cases hfound
    exact hmessage

end Text
end Reckoner
