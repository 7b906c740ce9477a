import Reckoner.Proofs.Legible
import Reckoner.Proofs.Parts

/-!
# The tokens of a text

When a text has tokens, which they are, and how it is refused otherwise.  The text has to be
admissible, which is what its check decides.  There is one token for each of its parts.  A mark
is always read, so the only part that can be refused is a run of digits that denotes too great a
number; the first of these names the failure.

**Results.**
* `token_of_part`: a part is read as the token that it denotes, or its number is out of range.
* `ofText_accepts_iff`: which texts have tokens.
* `ofText_refuses`: how a text is refused.
* `ofText_complete`: success, the tokens, and every failure.
-/

namespace Reckoner
namespace Token

open Text

/-- The token that a part of a text denotes. -/
inductive Denoted : List Char → Token → Prop
  | constant
      {digits : List Char} {n : Int32}
      (hrun : IsRun digits)
      (hvalue : n.toInt = Decimal.value digits) :
      Denoted digits (.constant n)
  | letter (v : Letter) :
      Denoted [v.char] (.letter v)
  | operator (op : Operator) :
      Denoted [op.symbol] (.operator op)
  | opening :
      Denoted ['('] .opening
  | closing :
      Denoted [')'] .closing

section Parts

theorem toConstant_of_le
    {digits : List Char}
    (h : Decimal.value digits ≤ 2147483647) :
    ∃ n,
      Element.toConstant (String.ofList digits) = .ok n ∧
      n.toInt = Decimal.value digits := by
  refine ⟨Int32.ofNat (Decimal.value digits), ?_, Int32.toInt_ofNat_of_lt (by omega)⟩
  simp only [Element.toConstant, String.toList_ofList, Decimal.ofDigits?, if_pos h]

theorem toConstant_of_lt
    {digits : List Char}
    (h : 2147483647 < Decimal.value digits) :
    Element.toConstant (String.ofList digits) = .error (.outOfRange (String.ofList digits)) := by
  simp only [Element.toConstant, String.toList_ofList, Decimal.ofDigits?,
    if_neg (Nat.not_le.2 h)]

/-- Every mark is the only character of a token. -/
theorem exists_chars_of_isMark
    {c : Char}
    (h : isMark c = true) :
    ∃ token : Token, token.chars = [c] ∧ token.Unsigned ∧ Denoted [c] token := by
  simp only [isMark, Bool.or_eq_true, beq_iff_eq, or_assoc] at h
  rcases h with hlower | rfl | rfl | rfl | rfl | rfl
  · exact ⟨.letter ⟨c, hlower⟩, rfl, trivial, .letter ⟨c, hlower⟩⟩
  · exact ⟨.operator .add, rfl, trivial, .operator .add⟩
  · exact ⟨.operator .subtract, rfl, trivial, .operator .subtract⟩
  · exact ⟨.operator .multiply, rfl, trivial, .operator .multiply⟩
  · exact ⟨.opening, rfl, trivial, .opening⟩
  · exact ⟨.closing, rfl, trivial, .closing⟩

/-- A part is read as the token that it denotes, unless it is a run of digits that denotes too
great a number. -/
theorem token_of_part
    {part : List Char}
    (h : IsPart part) :
    (Fits part ∧
      ∃ token, Element.toToken (String.ofList part) = .ok token ∧ Denoted part token)
      ∨
    (IsRun part ∧ 2147483647 < Decimal.value part ∧
      Element.toToken (String.ofList part) = .error (.outOfRange (String.ofList part))) := by
  rcases h with hrun | ⟨c, hmark, rfl⟩
  · rw [Element.toToken_digits hrun.1 hrun.2]
    rcases Nat.lt_or_ge 2147483647 (Decimal.value part) with hlarge | hsmall
    · rw [toConstant_of_lt hlarge]
      exact .inr ⟨hrun, hlarge, rfl⟩
    · obtain ⟨n, hn, hvalue⟩ := toConstant_of_le hsmall
      rw [hn]
      exact .inl ⟨fun _ => hsmall, .constant n, rfl, .constant hrun hvalue⟩
  · obtain ⟨token, hchars, hunsigned, hdenoted⟩ := exists_chars_of_isMark hmark
    have hread := toToken_chars hunsigned
    rw [hchars] at hread
    refine .inl ⟨?_, token, hread, hdenoted⟩
    intro hrun
    have hdigit : c.isDigit = true := hrun.2 c (by simp)
    rw [isDigit_of_isMark hmark] at hdigit
    cases hdigit

theorem isRun_of_denoted
    {part : List Char} {token : Token}
    (h : Denoted part token)
    (hconstant : token.isConstant = true) :
    IsRun part := by
  cases h with
  | constant hrun _ =>
      exact hrun
  | letter _ | operator _ | opening | closing =>
      cases hconstant

/-- Where no two runs of digits touch, no two constants do. -/
theorem isChain_apart_of_denoted
    {parts : List (List Char)} {tokens : List Token}
    (hparts : parts.IsChain fun a b => ¬ (IsRun a ∧ IsRun b))
    (h : List.Forall₂ Denoted parts tokens) :
    tokens.IsChain Apart := by
  induction h with
  | nil =>
      exact List.isChain_nil
  | @cons a first parts tokens hfirst hrest ih =>
      cases hrest with
      | nil =>
          exact List.isChain_singleton _
      | @cons b second parts tokens hsecond hrest =>
          obtain ⟨hapart, hparts⟩ := List.isChain_cons_cons.1 hparts
          refine List.isChain_cons_cons.2 ⟨?_, ih hparts⟩
          by_contra htouch
          simp only [Apart, not_or, Bool.not_eq_false] at htouch
          exact hapart ⟨isRun_of_denoted hfirst htouch.1, isRun_of_denoted hsecond htouch.2⟩

end Parts

section Texts

variable {text : String}

theorem ofText_of_admissible
    (h : Admissible text) :
    ofText (some text) =
      (parts text).mapM fun part => Element.toToken (String.ofList part) := by
  rw [ofText_some, (check_eq_ok_iff text).2 h, ok_bind, Element.split, cut_strip_of_admissible h,
    List.mapM_map]
  rfl

theorem ofText_of_not_admissible
    (h : ¬ Admissible text) :
    ∃ failure, check text = .error failure ∧ ofText (some text) = .error failure := by
  cases hcheck : check text with
  | ok _ =>
      exact absurd ((check_eq_ok_iff text).1 hcheck) h
  | error failure =>
      refine ⟨failure, rfl, ?_⟩
      rw [ofText_some, hcheck, error_bind]

theorem ofText_eq_ok
    (h : Admissible text)
    {tokens : List Token}
    (hread : ofText (some text) = .ok tokens) :
    (∀ part ∈ parts text, Fits part) ∧ List.Forall₂ Denoted (parts text) tokens := by
  rw [ofText_of_admissible h, mapM_eq_ok_iff] at hread
  have hclass :=
    (List.forall₂_and_left _ _).2 ⟨fun _ => isPart_of_mem_parts h, hread⟩
  refine (List.forall₂_and_left _ _).1 (hclass.imp ?_)
  rintro part token ⟨hpart, htoken⟩
  rcases token_of_part hpart with ⟨hfits, other, hother, hdenoted⟩ | ⟨_, _, hrefused⟩
  · rw [hother] at htoken
    cases htoken
    exact ⟨hfits, hdenoted⟩
  · rw [hrefused] at htoken
    cases htoken

theorem ofText_eq_error
    (h : Admissible text)
    {failure : Failure}
    (hread : ofText (some text) = .error failure) :
    ∃ run, FirstTooGreat text run ∧ failure = .outOfRange (String.ofList run) := by
  rw [ofText_of_admissible h] at hread
  obtain ⟨before, run, after, hparts, hbefore, hrun⟩ := mapM_eq_error hread
  have hclass : ∀ part ∈ before ++ run :: after, IsPart part := by
    rw [← hparts]
    exact fun _ => isPart_of_mem_parts h
  -- What stands in front of the failure was read, so its numbers are in range.
  have hfits : ∀ part ∈ before, Fits part := by
    intro part hpart
    obtain ⟨token, htoken⟩ := hbefore part hpart
    rcases token_of_part (hclass part (by simp [hpart])) with ⟨hfits, _⟩ | ⟨_, _, hrefused⟩
    · exact hfits
    · rw [hrefused] at htoken
      cases htoken
  rcases token_of_part (hclass run (by simp)) with
    ⟨_, token, htoken, _⟩ | ⟨hdigits, hgreat, hrefused⟩
  · rw [htoken] at hrun
    cases hrun
  · rw [hrefused] at hrun
    cases hrun
    exact ⟨run, ⟨before, after, hparts, hfits, hdigits, hgreat⟩, rfl⟩

theorem ofText_accepts_iff (text : String) :
    (∃ tokens, ofText (some text) = .ok tokens)
      ↔
    Admissible text ∧ ∀ part ∈ parts text, Fits part := by
  constructor
  · rintro ⟨tokens, htokens⟩
    by_cases h : Admissible text
    · exact ⟨h, (ofText_eq_ok h htokens).1⟩
    · obtain ⟨failure, _, hrefused⟩ := ofText_of_not_admissible h
      rw [hrefused] at htokens
      cases htokens
  · rintro ⟨h, hfits⟩
    cases hread : ofText (some text) with
    | ok tokens =>
        exact ⟨tokens, rfl⟩
    | error failure =>
        obtain ⟨run, ⟨before, after, hparts, _, hrun, hgreat⟩, _⟩ := ofText_eq_error h hread
        have hsmall := hfits run (by rw [hparts]; simp) hrun
        omega

/-- A text is refused by the check or for its first number that is out of range. -/
theorem ofText_refuses
    {failure : Failure}
    (hread : ofText (some text) = .error failure) :
    (¬ Admissible text ∧ check text = .error failure ∧
        (failure = .empty ∨ ∃ found, failure = .foreign found text))
      ∨
    (Admissible text ∧
      ∃ run, FirstTooGreat text run ∧ failure = .outOfRange (String.ofList run)) := by
  by_cases h : Admissible text
  · exact .inr ⟨h, ofText_eq_error h hread⟩
  · obtain ⟨other, hcheck, hrefused⟩ := ofText_of_not_admissible h
    rw [hrefused] at hread
    cases hread
    exact .inl ⟨h, hcheck, check_eq_error hcheck⟩

theorem ofText_eq_of_filter_eq
    {other : String}
    (h : Admissible text)
    (hother : Admissible other)
    (hsame : text.toList.filter (· ≠ ' ') = other.toList.filter (· ≠ ' ')) :
    ofText (some text) = ofText (some other) := by
  rw [ofText_of_admissible h, ofText_of_admissible hother, parts, parts, hsame]

end Texts

/-- A text has tokens exactly if it is admissible and its numbers are in range.  Then there is
one token for each of its parts, in order, and no two constants touch.  Every other text is
refused as unusable input: by the check of its characters, or else for its first number that
is out of range; no element is ever refused for its class.  Spaces make no difference. -/
theorem ofText_complete (text : String) :
    ((∃ tokens, ofText (some text) = .ok tokens)
        ↔
      Admissible text ∧ ∀ part ∈ parts text, Fits part)
      ∧
    (∀ tokens,
      ofText (some text) = .ok tokens →
      (parts text).flatten = text.toList.filter (· ≠ ' ') ∧
      ((parts text).IsChain fun a b => ¬ (IsRun a ∧ IsRun b)) ∧
      List.Forall₂ Denoted (parts text) tokens ∧
      tokens.IsChain Apart)
      ∧
    (∀ failure,
      ofText (some text) = .error failure →
      failure.kind = .input ∧
      ((¬ Admissible text ∧ check text = .error failure ∧
          (failure = .empty ∨ ∃ found, failure = .foreign found text))
        ∨
      (Admissible text ∧
        ∃ run, FirstTooGreat text run ∧ failure = .outOfRange (String.ofList run))) ∧
      ∀ quoted,
        failure ≠ .unknownElement quoted ∧
        failure ≠ .invalidName quoted ∧
        failure ≠ .unexpectedOperator quoted)
      ∧
    (∀ other,
      Admissible text →
      Admissible other →
      text.toList.filter (· ≠ ' ') = other.toList.filter (· ≠ ' ') →
      ofText (some text) = ofText (some other)) := by
  refine ⟨ofText_accepts_iff text, ?_, ?_, fun other => ofText_eq_of_filter_eq⟩
  · intro tokens htokens
    obtain ⟨h, _⟩ := (ofText_accepts_iff text).1 ⟨tokens, htokens⟩
    obtain ⟨_, hdenoted⟩ := ofText_eq_ok h htokens
    have hchain := isChain_parts text
    exact
      ⟨List.flatten_splitBy joined _, hchain, hdenoted,
        isChain_apart_of_denoted hchain hdenoted⟩
  · intro failure hfailure
    have hcases := ofText_refuses hfailure
    refine ⟨?_, hcases, ?_⟩
    · rcases hcases with ⟨_, _, rfl | ⟨found, rfl⟩⟩ | ⟨_, run, _, rfl⟩ <;> rfl
    · intro quoted
      rcases hcases with ⟨_, _, rfl | ⟨found, rfl⟩⟩ | ⟨_, run, _, rfl⟩ <;> simp

/-- Spaces inside a number and leading zeros are passed over, but a number out of range is
named with its zeros. -/
theorem ofText_complete_spaces :
    ofText (some " 4 7 + 05 ") = .ok [.constant 47, .operator .add, .constant 5] ∧
    List.Forall₂ Denoted [['4', '7'], ['+'], ['0', '5']]
      [.constant 47, .operator .add, .constant 5] ∧
    ofText (some " 4 7 + 05 ") = ofText (some "47+05") ∧
    ofText (some "1-02147 483648") = .error (.outOfRange "02147483648") ∧
    FirstTooGreat "1-02147 483648" "02147483648".toList := by
  have htokens :
      ofText (some " 4 7 + 05 ") = .ok [.constant 47, .operator .add, .constant 5] := by
    rfl
  have hrefused :
      ofText (some "1-02147 483648") = .error (.outOfRange "02147483648") := by
    rfl
  have hspaced : Admissible " 4 7 + 05 " :=
    ((ofText_complete " 4 7 + 05 ").1.1 ⟨_, htokens⟩).1
  have hplain : Admissible "47+05" :=
    ((ofText_complete "47+05").1.1 ⟨[.constant 47, .operator .add, .constant 5], rfl⟩).1
  obtain ⟨_, _, hdenoted, _⟩ := (ofText_complete " 4 7 + 05 ").2.1 _ htokens
  obtain ⟨_, hcases, _⟩ := (ofText_complete "1-02147 483648").2.2.1 _ hrefused
  refine ⟨htokens, hdenoted, ?_, hrefused, ?_⟩
  · exact (ofText_complete " 4 7 + 05 ").2.2.2 "47+05" hspaced hplain (by decide)
  · rcases hcases with ⟨_, _, hempty | ⟨_, hforeign⟩⟩ | ⟨_, run, hrun, hfailure⟩
    · cases hempty
    · cases hforeign
    · have hname : String.ofList run = "02147483648" := (Failure.outOfRange.inj hfailure).symm
      rwa [← hname, String.toList_ofList]

end Token
end Reckoner
