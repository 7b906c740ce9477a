import Reckoner.Proofs.Inlining

/-!
# Numbers in the place of letters

The digits of a number are put in the place of a letter, with nothing around them.  They could run
together with digits beside them.  This does not happen in an accepted text: the number is an
operand as the letter was, so that the tokens with the number in the place of the letter are again
an expression, and two constants never touch in an expression.

Hence writing a number in the place of a letter and giving the letter that number come to the same.

**Results.**
* `reads_flatMap_numeral`: what is read after the substitution, if no two constants touch.
* `ofTokens_replace_constant`: the tokens are read as the tree with the number in it.
* `ofText_substitute_numeral`: the expression and the value of the text with the number in it.
-/

namespace Reckoner

open Grammar

/-- The decimal notation of a number as a text. -/
def Decimal.numeral (n : Int32) : String :=
  String.ofList (ofInt32 n)

namespace Element

open Text

variable {digits rest : List Char} {n : Int32} {w : List Token}

/-- What follows a constant does not begin with a digit. -/
theorem head_of_apart
    (h : Reads rest w)
    (hapart : (.constant n :: w).IsChain Token.Apart) :
    rest.head?.any Char.isDigit = false := by
  cases h using Reads.induction with
  | nil _ =>
      rfl
  | run digits rest m w _ _ _ _ _ =>
      rcases (List.isChain_cons_cons.1 hapart).1 with hfirst | hsecond
      · cases hfirst
      · cases hsecond
  | mark c rest token w _ _ hmark _ _ =>
      exact isDigit_of_isMark hmark
  | other c rest w _ _ hdigit _ _ =>
      exact hdigit

theorem reads_run_append
    (hdigits : Reads digits [.constant n])
    (h : Reads rest w)
    (hapart : (.constant n :: w).IsChain Token.Apart) :
    Reads (digits ++ rest) (.constant n :: w) :=
  (reads_append_iff (parted_of_head (head_of_apart h hapart) digits)).2 ⟨_, _, hdigits, h, rfl⟩

/-- Digits stand in the place of the letter as a constant, if no two constants come to touch. -/
theorem reads_flatMap_numeral
    {v : Letter} {chars : List Char}
    (hdigits : Reads digits [.constant n])
    (h : Reads chars w)
    (hapart : (w.flatMap (Token.replace v [.constant n])).IsChain Token.Apart) :
    Reads (chars.flatMap (replace v digits)) (w.flatMap (Token.replace v [.constant n])) := by
  induction h using Reads.induction with
  | nil h =>
      exact h
  | run run rest m w _ _ hrun _ hread ih =>
      rw [List.flatMap_cons, Token.replace_of_ne (by simp)] at hapart ⊢
      rw [List.flatMap_append, flatMap_replace_digits hrun.2]
      exact reads_run_append hread (ih hapart.tail) hapart
  | mark c rest token w _ _ hmark hdenoted hread ih =>
      rw [List.flatMap_cons] at hapart ⊢
      rw [List.flatMap_cons]
      by_cases hletter : c = v.char
      · rw [(eq_char_iff hdenoted hread v).1 hletter, Token.replace_letter_self] at hapart ⊢
        rw [replace, if_pos hletter]
        exact reads_run_append hdigits (ih hapart.tail) hapart
      · have hother : token ≠ .letter v := mt (eq_char_iff hdenoted hread v).2 hletter
        rw [Token.replace_of_ne hother] at hapart ⊢
        rw [replace_of_ne hletter]
        have hparted := parted_of_getLast (isDigit_of_isMark hmark) []
        exact (reads_append_iff (hparted _)).2 ⟨_, _, hread, ih hapart.tail, rfl⟩
  | other c rest w _ _ hdigit hmark hread ih =>
      have hletter : c ≠ v.char := by
        rintro rfl
        rw [isMark_char] at hmark
        cases hmark
      rw [List.flatMap_cons, replace_of_ne hletter]
      exact (reads_append_iff (parted_of_getLast hdigit [] _)).2 ⟨_, _, hread, ih hapart, rfl⟩

end Element

namespace Token

theorem ofText_numeral
    {n : Int32}
    (h : 0 ≤ n) :
    ofText (some (Decimal.numeral n)) = .ok [.constant n] := by
  have hspell : Decimal.numeral n = spell [.constant n] := by
    rw [Decimal.numeral, spell, List.flatMap_singleton]
    rfl
  have hlegible : Legible [.constant n] :=
    ⟨List.forall_mem_singleton.2 h, List.isChain_singleton _⟩
  rw [hspell, ofText_spell (by simp) hlegible]

/-- The constant stands in the place of the letter, if no two constants come to touch. -/
theorem ofText_substitute_digits
    {text : String} {w : List Token} {v : Letter} {n : Int32}
    (h : ofText (some text) = .ok w)
    (hn : 0 ≤ n)
    (hapart : (w.flatMap (replace v [.constant n])).IsChain Apart) :
    ofText (some (Text.substitute text v (Decimal.numeral n))) =
      .ok (w.flatMap (replace v [.constant n])) := by
  obtain ⟨hadmissible, hread⟩ := ofText_eq_ok_iff.1 h
  obtain ⟨hadmissibleNumeral, hreadNumeral⟩ := ofText_eq_ok_iff.1 (ofText_numeral hn)
  refine ofText_eq_ok_iff.2 ⟨hadmissible.substitute hadmissibleNumeral v, ?_⟩
  rw [Text.substitute, String.toList_ofList, Text.strip_flatMap_replace]
  exact Element.reads_flatMap_numeral hreadNumeral hread hapart

end Token

namespace Expr

/-- Tokens with a number in the place of a letter are read as the tree with the number in it. -/
theorem ofTokens_replace_constant
    {w : List Token} {e : Expr}
    (h : ofTokens w = .ok e)
    (v : Letter)
    (n : Int32) :
    Derives .expression (w.flatMap (Token.replace v [.constant n])) (e.substitute v (literal n))
      ∧
    ofTokens (w.flatMap (Token.replace v [.constant n])) = .ok (e.substitute v (literal n)) := by
  obtain ⟨hderives, hshallow⟩ := (ofTokens_eq_ok_iff w e).1 h
  have hresult : Derives .expression (w.flatMap (Token.replace v [.constant n]))
      (e.substitute v (literal n)) :=
    .replace (.constant n) v hderives
  have hroom : Token.LeavesRoom v 0 w := by
    rintro before after rfl
    exact hshallow before (List.prefix_append _ _)
  refine ⟨hresult, (ofTokens_eq_ok_iff _ _).2 ⟨hresult, ?_⟩⟩
  exact (Token.shallow_replace_iff h (Token.level_constant n) v).2 hroom

/-- The digits of a number in the place of a letter are that number in the place of the letter,
everywhere in the expression of the text.  The text with the digits is worth what the text is
worth if the letter has that number; and if one of them has no value, then neither has the other,
for the same reason. -/
theorem ofText_substitute_numeral
    {text : String} {e : Expr} {n : Int32}
    (h : ofText (some text) = .ok e)
    (hn : 0 ≤ n)
    (v : Letter) :
    ofText (some (Text.substitute text v (Decimal.numeral n))) = .ok (e.substitute v (literal n))
      ∧
    ∀ values,
      evaluateText (Text.substitute text v (Decimal.numeral n)) values =
        evaluateText text (values.insert v n) := by
  obtain ⟨w, hw, hread⟩ := bind_eq_ok_iff.1 ((ofText_eq _).symm.trans h)
  obtain ⟨hderives, hresult⟩ := ofTokens_replace_constant hread v n
  have htext :
      ofText (some (Text.substitute text v (Decimal.numeral n))) =
        .ok (e.substitute v (literal n)) := by
    rw [ofText_eq, Token.ofText_substitute_digits hw hn (isChain_apart_of_derives hderives),
      ok_bind, hresult]
  refine ⟨htext, ?_⟩
  intro values
  have hvalue : (literal n).evaluate values = .ok n := by
    rfl
  rw [evaluateText_of_ofText htext, evaluateText_of_ofText h, evaluate_substitute hvalue]

/-- The number is put into two factors, and the value for want of which the calculation fails is
still missing. -/
theorem ofText_substitute_numeral_factors :
    Text.substitute "2 * a - a*b" ⟨'a', rfl⟩ (Decimal.numeral 10) = "2 * 10 - 10*b"
      ∧
    ofText (some (Text.substitute "2 * a - a*b" ⟨'a', rfl⟩ (Decimal.numeral 10))) =
      .ok (operation .subtract (operation .multiply (literal 2) (literal 10))
        (operation .multiply (literal 10) (letter ⟨'b', rfl⟩)))
      ∧
    evaluateText (Text.substitute "2 * a - a*b" ⟨'a', rfl⟩ (Decimal.numeral 10)) Valuation.empty =
      evaluateText "2 * a - a*b" (Valuation.empty.insert ⟨'a', rfl⟩ 10)
      ∧
    evaluateText "2 * a - a*b" (Valuation.empty.insert ⟨'a', rfl⟩ 10) =
      .error (.missingValue ⟨'b', rfl⟩) := by
  have htext :
      ofText (some "2 * a - a*b") =
        .ok (operation .subtract (operation .multiply (literal 2) (letter ⟨'a', rfl⟩))
          (operation .multiply (letter ⟨'a', rfl⟩) (letter ⟨'b', rfl⟩))) := by
    rfl
  have hten : (0 : Int32) ≤ 10 := by
    decide
  obtain ⟨hresult, hvalues⟩ := ofText_substitute_numeral htext hten ⟨'a', rfl⟩
  exact ⟨by rfl, hresult, hvalues Valuation.empty, rfl⟩

end Expr

end Reckoner
