import Reckoner.Calculator
import Reckoner.Proofs.Landmarks
import Reckoner.Proofs.Rereading
import Reckoner.Proofs.Substitution

/-!
# Substitution in texts

A bracketed text is put in the place of a letter.  Its tokens then stand in the place of the
letter's token, so that the expression of the text is the one in which the other expression took
the place of the letter.

The brackets that keep the other text together also keep its numbers apart from those around it,
so that no number is read across the border.  They count towards the nesting: at each of the
letter's places they are opened on top of the brackets that are open there.

**Results.**
* `reads_flatMap_replace`: what is read after the substitution of characters.
* `Token.ofText_substitute`: the tokens of a text after the substitution.
* `ofText_substitute_enclosed`: its expression and its value, or its failure.
-/

namespace Reckoner

namespace Text

section Definitions

/-- Puts characters in the place of the character of a letter. -/
def replace (v : Letter) (inner : List Char) (c : Char) : List Char :=
  if c = v.char then inner else [c]

/-- Puts a text in the place of a letter. -/
def substitute (text : String) (v : Letter) (inner : String) : String :=
  String.ofList (text.toList.flatMap (replace v inner.toList))

/-- Wherever the letter occurs, a pair of brackets around the other text can be opened within the
limit on nested brackets. -/
def RoomFor (inner : String) (v : Letter) (text : String) : Prop :=
  ∀ before after,
    text.toList = before ++ v.char :: after →
    unclosed before + 1 + nesting inner.toList ≤ 256

end Definitions

section Room

theorem roomFor_iff
    (inner : String)
    (v : Letter)
    (text : String) :
    RoomFor inner v text
      ↔
    ∀ i < text.toList.length,
      text.toList[i]? = some v.char →
      unclosed (text.toList.take i) + 1 + nesting inner.toList ≤ 256 := by
  constructor
  · intro h i hi hletter
    apply h _ (text.toList.drop (i + 1))
    rw [← (List.getElem?_eq_some_iff.1 hletter).2, List.getElem_cons_drop, List.take_append_drop]
  · intro h before after hsplit
    have hroom := h before.length
    rw [hsplit] at hroom
    simpa using hroom

instance (inner : String) (v : Letter) (text : String) : Decidable (RoomFor inner v text) :=
  decidable_of_iff _ (roomFor_iff inner v text).symm

end Room

section Characters

variable {v : Letter}

theorem replace_of_ne
    {c : Char}
    (h : c ≠ v.char)
    (inner : List Char) :
    replace v inner c = [c] := by
  simp [replace, h]

theorem flatMap_replace_digits
    {digits : List Char}
    (h : ∀ c ∈ digits, c.isDigit = true)
    (inner : List Char) :
    digits.flatMap (replace v inner) = digits := by
  have hsame : ∀ c ∈ digits, replace v inner c = [c] := by
    intro c hc
    apply replace_of_ne
    rintro rfl
    have hdigit := h _ hc
    rw [isDigit_char] at hdigit
    cases hdigit
  rw [List.flatMap_congr hsame, List.flatMap_singleton']

/-- Blanks may be taken out before the replacement. -/
theorem strip_flatMap_replace
    (inner chars : List Char) :
    strip (chars.flatMap (replace v inner)) = (strip chars).flatMap (replace v (strip inner)) := by
  induction chars with
  | nil =>
      rfl
  | cons c rest ih =>
      rw [List.flatMap_cons, strip_append, ih]
      by_cases hletter : c = v.char
      · have hblank : isBlank c = false := hletter ▸ isBlank_of_isMark (isMark_char v)
        have hkept : strip (c :: rest) = c :: strip rest := by
          simp [strip, hblank]
        rw [hkept, List.flatMap_cons, replace, replace, if_pos hletter, if_pos hletter]
      · rw [replace_of_ne hletter]
        cases hblank : isBlank c with
        | false =>
            simp [strip, hblank, replace_of_ne hletter]
        | true =>
            simp [strip, hblank]

/-- Brackets keep apart what stands on the two sides of them. -/
theorem parted_replace
    {c : Char}
    (h : c.isDigit = false)
    (v : Letter)
    (inner rest : List Char) :
    Parted (replace v ('(' :: inner ++ [')']) c) rest := by
  by_cases hletter : c = v.char
  · rw [replace, if_pos hletter]
    exact parted_of_getLast (by decide) _ _
  · rw [replace_of_ne hletter]
    exact parted_of_getLast h [] _

theorem head_flatMap_replace
    {chars : List Char}
    (h : chars.head?.any Char.isDigit = false)
    (v : Letter)
    (inner : List Char) :
    (chars.flatMap (replace v ('(' :: inner ++ [')']))).head?.any Char.isDigit = false := by
  cases chars with
  | nil =>
      rfl
  | cons c rest =>
      rw [List.flatMap_cons]
      by_cases hletter : c = v.char
      · rw [replace, if_pos hletter]
        rfl
      · rw [replace_of_ne hletter]
        exact h

end Characters

end Text

namespace Element

open Text

variable {v : Letter} {inner : List Char} {u : List Token}

theorem reads_enclose
    (h : Reads inner u) :
    Reads ('(' :: inner ++ [')']) (Expr.enclose u) := by
  have hopening : Reads ['('] [.opening] := by rfl
  have hclosing : Reads [')'] [.closing] := by rfl
  have hbehind : Reads (inner ++ [')']) (u ++ [.closing]) :=
    (reads_append_iff (parted_of_head (by decide) inner)).2 ⟨u, _, h, hclosing, rfl⟩
  exact (reads_append_iff (parted_of_getLast (by decide) [] _)).2 ⟨_, _, hopening, hbehind, rfl⟩

/-- The letter's character, and no other, is read as the letter. -/
theorem eq_char_iff
    {c : Char} {token : Token}
    (hdenoted : Token.Denoted [c] token)
    (h : Reads [c] [token])
    (v : Letter) :
    c = v.char ↔ token = .letter v := by
  constructor
  · rintro rfl
    have hread : Reads (Token.letter v).chars [.letter v] := reads_chars trivial
    exact List.singleton_inj.1 (h.unique hread)
  · rintro rfl
    cases hdenoted
    rfl

/-- What is read for the bracketed characters stands in the place of the letter. -/
theorem reads_flatMap_replace
    {chars : List Char} {w : List Token}
    (hinner : Reads inner u)
    (h : Reads chars w) :
    Reads (chars.flatMap (replace v ('(' :: inner ++ [')'])))
      (w.flatMap (Token.replace v (Expr.enclose u))) := by
  induction h using Reads.induction with
  | nil h =>
      exact h
  | run digits rest n w _ _ hrun hend hdigits ih =>
      have hparted := parted_of_head (head_flatMap_replace hend v inner) digits
      rw [List.flatMap_append, flatMap_replace_digits hrun.2, List.flatMap_cons,
        Token.replace_of_ne (by simp)]
      exact (reads_append_iff hparted).2 ⟨_, _, hdigits, ih, rfl⟩
  | mark c rest token w _ _ hmark hdenoted hc ih =>
      have hparted := parted_replace (isDigit_of_isMark hmark) v inner
      rw [List.flatMap_cons, List.flatMap_cons]
      refine (reads_append_iff (hparted _)).2 ⟨_, _, ?_, ih, rfl⟩
      by_cases hletter : c = v.char
      · rw [(eq_char_iff hdenoted hc v).1 hletter, replace, if_pos hletter,
          Token.replace_letter_self]
        exact reads_enclose hinner
      · have hother : token ≠ .letter v := mt (eq_char_iff hdenoted hc v).2 hletter
        rwa [replace_of_ne hletter, Token.replace_of_ne hother]
  | other c rest w _ _ hdigit hmark hc ih =>
      have hletter : c ≠ v.char := by
        rintro rfl
        rw [isMark_char] at hmark
        cases hmark
      rw [List.flatMap_cons, replace_of_ne hletter]
      exact (reads_append_iff (parted_of_getLast hdigit [] _)).2 ⟨_, _, hc, ih, rfl⟩

end Element

namespace Text

theorem toList_enclosed (inner : String) :
    ("(" ++ inner ++ ")").toList = '(' :: inner.toList ++ [')'] := by
  simp

variable {text inner : String}

theorem Admissible.enclosed
    (h : Admissible inner) :
    Admissible ("(" ++ inner ++ ")") := by
  have hopening : Admissible "(" := (check_eq_ok_iff "(").1 rfl
  have hclosing : Admissible ")" := (check_eq_ok_iff ")").1 rfl
  exact (hopening.append h).append hclosing

theorem Admissible.substitute
    (h : Admissible text)
    (hinner : Admissible inner)
    (v : Letter) :
    Admissible (substitute text v inner) := by
  have hchars :
      (Text.substitute text v inner).toList = text.toList.flatMap (replace v inner.toList) :=
    String.toList_ofList
  constructor
  · intro hempty
    have htext : text.toList ≠ [] := by
      simpa using h.nonempty
    have hplaced : inner.toList ≠ [] := by
      simpa using hinner.nonempty
    obtain ⟨c, rest, hfirst⟩ := List.exists_cons_of_ne_nil htext
    have hreplaced : replace v inner.toList c ≠ [] := by
      unfold replace
      split
      · exact hplaced
      · simp
    rw [hempty, hfirst, List.flatMap_cons] at hchars
    exact hreplaced (List.append_eq_nil_iff.1 hchars.symm).1
  · intro c hc
    rw [hchars] at hc
    obtain ⟨d, hd, hc⟩ := List.mem_flatMap.1 hc
    unfold replace at hc
    split at hc
    · exact hinner.permitted c hc
    · rw [List.mem_singleton] at hc
      exact hc ▸ h.permitted d hd

end Text

namespace Token

/-- The tokens of the bracketed text stand in the place of the letter. -/
theorem ofText_substitute
    {text inner : String} {w u : List Token}
    (h : ofText (some text) = .ok w)
    (hinner : ofText (some inner) = .ok u)
    (v : Letter) :
    ofText (some (Text.substitute text v ("(" ++ inner ++ ")"))) =
      .ok (w.flatMap (replace v (Expr.enclose u))) := by
  obtain ⟨hadmissible, hread⟩ := ofText_eq_ok_iff.1 h
  obtain ⟨hadmissibleInner, hreadInner⟩ := ofText_eq_ok_iff.1 hinner
  refine ofText_eq_ok_iff.2 ⟨hadmissible.substitute hadmissibleInner.enclosed v, ?_⟩
  have hstrip :
      Text.strip ('(' :: inner.toList ++ [')']) = '(' :: Text.strip inner.toList ++ [')'] := by
    have hopening : Text.isBlank '(' = false := by
      decide
    have hclosing : Text.isBlank ')' = false := by
      decide
    simp [Text.strip, hopening, hclosing]
  rw [Text.substitute, String.toList_ofList, Text.strip_flatMap_replace, Text.toList_enclosed,
    hstrip]
  exact Element.reads_flatMap_replace hreadInner hread

end Token

namespace Expr

/-- A bracketed text in the place of a letter is its expression in the place of the letter,
everywhere in the expression of the text.  If at each place of the letter a pair of brackets
around the other text can be opened, then the text with the substitution is read as the expression
with the substitution, and is worth what the text is worth if the letter has the value of the other
text.  If not, then it is refused for the nesting of its brackets. -/
theorem ofText_substitute_enclosed
    {text innerText : String} {e inner : Expr}
    (h : ofText (some text) = .ok e)
    (hinner : ofText (some innerText) = .ok inner)
    (v : Letter) :
    (Text.RoomFor innerText v text →
      ofText (some (Text.substitute text v ("(" ++ innerText ++ ")"))) =
          .ok (e.substitute v inner) ∧
      ∀ values n,
        evaluateText innerText values = .ok n →
        evaluateText (Text.substitute text v ("(" ++ innerText ++ ")")) values =
          evaluateText text (values.insert v n))
      ∧
    (¬ Text.RoomFor innerText v text →
      ∃ position,
        ofText (some (Text.substitute text v ("(" ++ innerText ++ ")"))) =
          .error (.grammar .tooDeep position) ∧
        (Failure.grammar .tooDeep position).message =
          "Syntax error: Brackets nested deeper than 256 levels at index " ++
            String.ofList (Decimal.ofNat position)) := by
  obtain ⟨w, hw, hread⟩ := bind_eq_ok_iff.1 ((ofText_eq _).symm.trans h)
  obtain ⟨u, hu, hreadInner⟩ := bind_eq_ok_iff.1 ((ofText_eq _).symm.trans hinner)
  have hroom : Text.RoomFor innerText v text ↔ Token.LeavesRoom v (Token.nesting u + 1) w := by
    rw [leavesRoom_iff_of_ofText hw, ← nesting_eq_of_ofText hu]
    simp only [Text.RoomFor, Nat.add_assoc, Nat.add_comm 1]
    rfl
  have htokens :
      ofText (some (Text.substitute text v ("(" ++ innerText ++ ")"))) =
        ofTokens (w.flatMap (Token.replace v (enclose u))) := by
    rw [ofText_eq, Token.ofText_substitute hw hu, ok_bind]
  obtain ⟨hshallow, hdeep⟩ := ofTokens_replace_enclose hread hreadInner v
  rw [hroom, htokens]
  refine ⟨?_, ?_⟩
  · intro hleaves
    have hresult := hshallow hleaves
    refine ⟨hresult, ?_⟩
    intro values n hvalue
    rw [evaluateText_of_ofText hinner] at hvalue
    rw [evaluateText_of_ofText (htokens.trans hresult), evaluateText_of_ofText h,
      evaluate_substitute hvalue]
  · intro hleaves
    obtain ⟨position, hrefused⟩ := hdeep hleaves
    exact ⟨position, hrefused, Failure.message_tooDeep position⟩

/-- The value `5` of `b + 1` in the place of a letter.  With 255 brackets open at once, an expression
can still be put in the place of a letter outside all brackets, but of none inside a pair. -/
theorem ofText_substitute_enclosed_boundary :
    evaluateText (Text.substitute "2 * a - a" ⟨'a', rfl⟩ ("(" ++ "b + 1" ++ ")"))
        (Valuation.empty.insert ⟨'b', rfl⟩ 4) =
      evaluateText "2 * a - a" ((Valuation.empty.insert ⟨'b', rfl⟩ 4).insert ⟨'a', rfl⟩ 5)
      ∧
    evaluateText "2 * a - a" ((Valuation.empty.insert ⟨'b', rfl⟩ 4).insert ⟨'a', rfl⟩ 5) = .ok 5
      ∧
    ofText (some (Text.substitute "a" ⟨'a', rfl⟩ ("(" ++ (differences 256).toText ++ ")"))) =
      .ok (differences 256)
      ∧
    ∃ position,
      ofText (some (Text.substitute "(a)" ⟨'a', rfl⟩ ("(" ++ (differences 256).toText ++ ")"))) =
        .error (.grammar .tooDeep position) := by
  have hsmall :
      ofText (some "2 * a - a") =
        .ok (.operation .subtract (.operation .multiply (.literal 2) (.letter ⟨'a', rfl⟩))
          (.letter ⟨'a', rfl⟩)) := by
    rfl
  have hsum :
      ofText (some "b + 1") = .ok (.operation .add (.letter ⟨'b', rfl⟩) (.literal 1)) := by
    rfl
  have hletter : ofText (some "a") = .ok (.letter ⟨'a', rfl⟩) := by
    rfl
  have hbracket : ofText (some "(a)") = .ok (.letter ⟨'a', rfl⟩) := by
    rfl
  have hunsigned : ∀ m ∈ (differences 256).literals, 0 ≤ m :=
    fun _ => nonneg_of_mem_literals_differences
  have hdeep : ofText (some (differences 256).toText) = .ok (differences 256) := by
    apply ofText_toText_of_readable
    refine ⟨hunsigned, ?_⟩
    rw [Token.shallow_iff, nesting_differences]
    decide
  have hnesting : Text.nesting (differences 256).toText.toList = 255 := by
    rw [nesting_eq_of_ofText (tokens_toText_of_unsigned hunsigned), nesting_differences]
  refine ⟨?_, rfl, ?_, ?_⟩
  · exact ((ofText_substitute_enclosed hsmall hsum ⟨'a', rfl⟩).1 (by decide)).2 _ _ rfl
  · refine ((ofText_substitute_enclosed hletter hdeep ⟨'a', rfl⟩).1 ?_).1
    rw [Text.roomFor_iff, hnesting]
    decide
  · have hfull : ¬ Text.RoomFor (differences 256).toText ⟨'a', rfl⟩ "(a)" := by
      rw [Text.roomFor_iff, hnesting]
      decide
    obtain ⟨position, hrefused, _⟩ :=
      (ofText_substitute_enclosed hbracket hdeep ⟨'a', rfl⟩).2 hfull
    exact ⟨position, hrefused⟩

end Expr

end Reckoner
