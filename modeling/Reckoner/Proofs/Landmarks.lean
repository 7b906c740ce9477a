import Mathlib.Data.List.Infix
import Mathlib.Data.List.MinMax
import Mathlib.Order.Nat
import Reckoner.Proofs.Balance
import Reckoner.Proofs.Piecewise

/-!
# Open brackets in a text

How many brackets are open at a place of a text is counted in its characters.  The landmarks of a
text are its brackets and letters, and the same goes for a list of tokens.  A text and its tokens
have the same landmarks, and between them no bracket is opened or closed, so that the open brackets
may be counted at any letter in either of them.

**Results.**
* `landmarks_eq_of_ofText`: a text and its tokens have the same landmarks.
* `nesting_eq_of_ofText`: they are nested equally deep.
* `leavesRoom_iff_of_ofText`: at the places of a letter they have equally many open brackets.
-/

namespace Reckoner

namespace Text

section Definitions

/-- The number of brackets that are still open after the characters. -/
def unclosed (chars : List Char) : Nat :=
  chars.count '(' - chars.count ')'

/-- The deepest nesting of brackets: the greatest number that any beginning leaves open. -/
def nesting (chars : List Char) : Nat :=
  (chars.inits.map unclosed).foldr max 0

/-- The bracket or letter that a character is. -/
def landmark (c : Char) : Option Token :=
  if c = '(' then some .opening
  else if c = ')' then some .closing
  else (Letter.ofChar? c).map .letter

end Definitions

end Text

/-- The token itself, if it is a bracket or a letter. -/
def Token.landmark : Token → Option Token
  | constant _ | operator _ => none
  | token => some token

namespace Text

theorem nesting_le_iff
    (chars : List Char)
    (k : Nat) :
    nesting chars ≤ k ↔ ∀ start, start <+: chars → unclosed start ≤ k := by
  constructor
  · intro h start hstart
    have hmem : unclosed start ∈ chars.inits.map unclosed :=
      List.mem_map_of_mem ((List.mem_inits _ _).2 hstart)
    exact (List.le_max_of_le hmem (Nat.le_refl _)).trans h
  · intro h
    apply List.max_le_of_forall_le
    intro n hn
    obtain ⟨start, hstart, rfl⟩ := List.mem_map.1 hn
    exact h start ((List.mem_inits _ _).1 hstart)

section Landmarks

theorem landmark_eq_opening_iff (c : Char) :
    landmark c = some .opening ↔ c = '(' := by
  unfold landmark
  split
  · simp [*]
  split
  · simp [*]
  · simp [*]

theorem landmark_eq_closing_iff (c : Char) :
    landmark c = some .closing ↔ c = ')' := by
  unfold landmark
  split
  · simp [*]
  split
  · simp [*]
  · simp [*]

theorem landmark_eq_letter_iff
    (v : Letter)
    (c : Char) :
    landmark c = some (.letter v) ↔ c = v.char := by
  unfold landmark
  split
  next h =>
    simp [h, (v.char_ne (c := '(') (by decide)).symm]
  split
  next h =>
    simp [h, (v.char_ne (c := ')') (by decide)).symm]
  · simp only [Option.map_eq_some_iff, Token.letter.injEq, exists_eq_right,
      Letter.ofChar?_eq_some_iff]
    exact eq_comm

/-- All landmarks are marks. -/
theorem landmark_eq_none
    {c : Char}
    (h : isMark c = false) :
    landmark c = none := by
  simp only [isMark, Bool.or_eq_false_iff, beq_eq_false_iff_ne] at h
  simp [landmark, Letter.ofChar?, h]

theorem landmark_of_isDigit
    {c : Char}
    (h : c.isDigit = true) :
    landmark c = none := by
  apply landmark_eq_none
  rw [Bool.eq_false_iff]
  intro hmark
  rw [isDigit_of_isMark hmark] at h
  cases h

theorem landmark_of_isBlank
    {c : Char}
    (h : isBlank c = true) :
    landmark c = none := by
  apply landmark_eq_none
  rw [Bool.eq_false_iff]
  intro hmark
  rw [isBlank_of_isMark hmark] at h
  cases h

/-- A character that is a token by itself has the landmark of that token. -/
theorem landmark_of_denoted
    {c : Char} {token : Token}
    (h : Token.Denoted [c] token) :
    landmark c = token.landmark := by
  cases h with
  | constant hrun _ =>
      exact landmark_of_isDigit (hrun.2 c (List.mem_singleton_self c))
  | letter v =>
      exact (landmark_eq_letter_iff v v.char).2 rfl
  | operator op =>
      cases op <;> decide
  | opening | closing =>
      rfl

end Landmarks

end Text

namespace Token

theorem landmark_eq_some_iff
    {other : Token}
    (h : other.landmark = some other)
    (token : Token) :
    token.landmark = some other ↔ token = other := by
  constructor
  · intro htoken
    cases token with
    | constant _ | operator _ =>
        cases htoken
    | letter _ | opening | closing =>
        exact Option.some.inj htoken
  · rintro rfl
    exact h

section Counting

variable {α : Type} {f : α → Option Token}

theorem count_filterMap_of_iff
    [BEq α] [LawfulBEq α]
    {token : Token} {x : α}
    (h : ∀ a, f a = some token ↔ a = x)
    (list : List α) :
    (list.filterMap f).count token = list.count x := by
  rw [List.count_filterMap, List.count]
  congr 1
  funext a
  rw [Bool.eq_iff_iff, beq_iff_eq, beq_iff_eq, h a]

/-- Brackets may be counted among whatever stands for them. -/
theorem unclosed_filterMap
    [BEq α] [LawfulBEq α]
    {o c : α}
    (hopening : ∀ a, f a = some .opening ↔ a = o)
    (hclosing : ∀ a, f a = some .closing ↔ a = c)
    (list : List α) :
    unclosed (list.filterMap f) = list.count o - list.count c := by
  rw [unclosed, count_filterMap_of_iff hopening, count_filterMap_of_iff hclosing]

theorem nesting_filterMap_le_iff
    (list : List α)
    (k : Nat) :
    nesting (list.filterMap f) ≤ k ↔ ∀ start, start <+: list → unclosed (start.filterMap f) ≤ k := by
  rw [nesting_le_iff]
  constructor
  · intro h start hstart
    exact h _ (hstart.filterMap f)
  · intro h start hstart
    obtain ⟨start, hprefix, rfl⟩ := List.prefix_filterMap_iff.1 hstart
    exact h start hprefix

theorem leavesRoom_filterMap_iff
    {v : Letter} {x : α}
    (hletter : ∀ a, f a = some (.letter v) ↔ a = x)
    (k : Nat)
    (list : List α) :
    LeavesRoom v k (list.filterMap f)
      ↔
    ∀ before after,
      list = before ++ x :: after →
      unclosed (before.filterMap f) + k ≤ Grammar.depthLimit := by
  constructor
  · rintro h before after rfl
    apply h _ (after.filterMap f)
    rw [List.filterMap_append, List.filterMap_cons_some ((hletter x).2 rfl)]
  · intro h before after hsplit
    obtain ⟨first, second, rfl, rfl, hsecond⟩ := List.filterMap_eq_append_iff.1 hsplit
    obtain ⟨skipped, y, rest, rfl, hskipped, hy, _⟩ := List.filterMap_eq_cons_iff.1 hsecond
    obtain rfl := (hletter y).1 hy
    have hroom := h (first ++ skipped) rest (by simp)
    rwa [List.filterMap_append, List.filterMap_eq_nil_iff.2 hskipped, List.append_nil] at hroom

end Counting

end Token

namespace Element

open Text

/-- Characters and the tokens that they are read as have the same landmarks. -/
theorem landmarks_eq_of_reads
    {chars : List Char} {tokens : List Token}
    (h : Reads chars tokens) :
    chars.filterMap landmark = tokens.filterMap Token.landmark := by
  induction h using Reads.induction with
  | nil =>
      rfl
  | run digits rest n w _ _ hrun _ _ ih =>
      have hdigits : digits.filterMap landmark = [] := by
        rw [List.filterMap_eq_nil_iff]
        intro c hc
        exact landmark_of_isDigit (hrun.2 c hc)
      rw [List.filterMap_append, hdigits, ih]
      rfl
  | mark c rest token w _ _ _ hdenoted _ ih =>
      rw [List.filterMap_cons, List.filterMap_cons, landmark_of_denoted hdenoted, ih]
  | other c rest w _ _ _ hmark _ ih =>
      rw [List.filterMap_cons_none (landmark_eq_none hmark), ih]

end Element

section Texts

variable {text : String} {w : List Token}

/-- A text and its tokens have the same landmarks. -/
theorem landmarks_eq_of_ofText (h : Token.ofText (some text) = .ok w) :
    text.toList.filterMap Text.landmark = w.filterMap Token.landmark := by
  rw [← Element.landmarks_eq_of_reads (Token.ofText_eq_ok_iff.1 h).2, Text.strip,
    List.filterMap_filter]
  apply List.filterMap_congr
  intro c _
  cases hblank : Text.isBlank c with
  | false =>
      rfl
  | true =>
      exact Text.landmark_of_isBlank hblank

theorem Text.unclosed_landmarks (chars : List Char) :
    Token.unclosed (chars.filterMap landmark) = unclosed chars :=
  Token.unclosed_filterMap landmark_eq_opening_iff landmark_eq_closing_iff chars

theorem Token.unclosed_landmarks (tokens : List Token) :
    unclosed (tokens.filterMap landmark) = unclosed tokens :=
  unclosed_filterMap (landmark_eq_some_iff rfl) (landmark_eq_some_iff rfl) tokens

/-- A text and its tokens are nested equally deep. -/
theorem nesting_eq_of_ofText (h : Token.ofText (some text) = .ok w) :
    Text.nesting text.toList = Token.nesting w := by
  apply eq_of_forall_ge_iff
  intro k
  have htext := Token.nesting_filterMap_le_iff (f := Text.landmark) text.toList k
  have htokens := Token.nesting_filterMap_le_iff (f := Token.landmark) w k
  simp only [Text.unclosed_landmarks] at htext
  simp only [Token.unclosed_landmarks] at htokens
  rw [Text.nesting_le_iff, Token.nesting_le_iff, ← htext, ← htokens, landmarks_eq_of_ofText h]

/-- A text and its tokens leave the same room at the places of a letter. -/
theorem leavesRoom_iff_of_ofText
    (h : Token.ofText (some text) = .ok w)
    (v : Letter)
    (k : Nat) :
    Token.LeavesRoom v k w
      ↔
    ∀ before after,
      text.toList = before ++ v.char :: after →
      Text.unclosed before + k ≤ Grammar.depthLimit := by
  have htext :=
    Token.leavesRoom_filterMap_iff (Text.landmark_eq_letter_iff v) k text.toList
  have hletter : (Token.letter v).landmark = some (.letter v) := by
    rfl
  have htokens :=
    Token.leavesRoom_filterMap_iff (Token.landmark_eq_some_iff hletter) k w
  simp only [Text.unclosed_landmarks] at htext
  simp only [Token.unclosed_landmarks] at htokens
  rw [← htext, landmarks_eq_of_ofText h, htokens]
  rfl

end Texts

end Reckoner
