import Reckoner.Calculator
import Reckoner.Proofs.Acceptance
import Reckoner.Proofs.Missing
import Reckoner.Proofs.Piecewise

/-!
# Joining texts with a plus sign

Two texts with a plus sign between them are read as one expression whenever each of them is.  It
is not the sum of the two expressions: the terms of the second text are joined one after another
to all that stands before them, so that its additive chain goes on where the first text ends.
Sums and differences that wrap around may be regrouped in this way, and the letters keep their
order.

**Results.**
* `Derives.join`: an expression, a plus sign and an expression are one expression.
* `Joined.lettersAfter` and `Joined.evaluate`: its letters and its value.
* `ofText_join`: reading the two texts with a plus sign between them.
* `ofText_joined_with_plus`: the letters, the value and the failures of the joined text.
-/

namespace Reckoner

open Grammar

section Definitions

/-- The terms of the second expression are joined one by one to the first one, the first of them
with a plus sign.  What is taken for a term is left open, since brackets keep a sum together. -/
inductive Joined (a : Expr) : Expr → Expr → Prop
  | term (b : Expr) :
      Joined a b (.operation .add a b)
  | chain
      {op : Operator} {b term e : Expr}
      (hop : op.IsAdditive)
      (h : Joined a b e) :
      Joined a (.operation op b term) (.operation op e term)

end Definitions

/-- A sum may be regrouped with the sum or the difference behind it. -/
theorem Operator.apply_regroup
    {op : Operator}
    (hop : op.IsAdditive)
    (a b c : Int32) :
    op.apply (a + b) c = a + op.apply b c := by
  rcases hop with rfl | rfl
  · exact Int32.add_assoc a b c
  · simp only [apply, Int32.sub_eq_add_neg, Int32.add_assoc]

namespace Joined

variable {a b e : Expr}

/-- The letters of the second expression come after those of the first one. -/
theorem lettersAfter
    (h : Joined a b e)
    (seen : List Letter) :
    e.lettersAfter seen = b.lettersAfter (a.lettersAfter seen) := by
  induction h with
  | term b =>
      rfl
  | chain _ _ ih =>
      simp only [Expr.lettersAfter, ih]

theorem letters
    (h : Joined a b e) :
    e.letters = a.letters ++ b.letters.filter (· ∉ a.letters) := by
  rw [Expr.letters, h.lettersAfter, Expr.lettersAfter_eq_append]
  rfl

/-- The value, and the failure too, is that of the sum of the two expressions. -/
theorem evaluate
    (h : Joined a b e)
    (values : Valuation) :
    e.evaluate values = (Expr.operation .add a b).evaluate values := by
  induction h with
  | term b =>
      rfl
  | @chain op b term e hop _ ih =>
      simp only [Expr.evaluate] at ih ⊢
      rw [ih]
      cases a.evaluate values with
      | error failure =>
          rfl
      | ok m =>
          cases b.evaluate values with
          | error failure =>
              rfl
          | ok n =>
              cases term.evaluate values with
              | error failure =>
                  rfl
              | ok k =>
                  exact congrArg Except.ok (Operator.apply_regroup hop m n k)

end Joined

namespace Grammar

/-- The second expression goes on where the first one ends. -/
theorem Derives.join
    {u v : List Token} {a b : Expr}
    (hu : Derives .expression u a)
    (hv : Derives .expression v b) :
    ∃ e, Joined a b e ∧ Derives .expression (u ++ .operator .add :: v) e := by
  generalize hphrase : Phrase.expression = phrase at hv
  induction hv with
  | ofTerm hterm _ =>
      exact ⟨_, .term _, .additive (.inl rfl) hu hterm⟩
  | @additive op v w b term hop _ hterm ih _ =>
      obtain ⟨e, hjoined, hderives⟩ := ih hphrase
      refine ⟨_, .chain hop hjoined, ?_⟩
      have hlonger := Derives.additive hop hderives hterm
      rwa [List.append_assoc, List.cons_append] at hlonger
  | ofFactor _ _ | multiply _ _ _ _ | constant _ | letter _ | bracket _ _ =>
      cases hphrase

end Grammar

namespace Token

/-- The tokens of two texts with a plus sign between them are those of the two texts. -/
theorem ofText_join
    {first second : String} {u v : List Token}
    (hfirst : ofText (some first) = .ok u)
    (hsecond : ofText (some second) = .ok v) :
    ofText (some (first ++ "+" ++ second)) = .ok (u ++ .operator .add :: v) := by
  obtain ⟨hadmissible, hread⟩ := ofText_eq_ok_iff.1 hfirst
  obtain ⟨hadmissibleSecond, hreadSecond⟩ := ofText_eq_ok_iff.1 hsecond
  have hplus : ofText (some "+") = .ok [.operator .add] := by
    rfl
  obtain ⟨hadmissiblePlus, hreadPlus⟩ := ofText_eq_ok_iff.1 hplus
  refine ofText_eq_ok_iff.2
    ⟨(hadmissible.append hadmissiblePlus).append hadmissibleSecond, ?_⟩
  have hbehind :
      Element.Reads (Text.strip "+".toList ++ Text.strip second.toList) (.operator .add :: v) :=
    (Element.reads_append_iff (Text.parted_of_getLast (by decide) [] _)).2
      ⟨_, _, hreadPlus, hreadSecond, rfl⟩
  rw [String.toList_append, String.toList_append, List.append_assoc, Text.strip_append,
    Text.strip_append]
  exact
    (Element.reads_append_iff (Text.parted_of_head (by rfl) _)).2 ⟨_, _, hread, hbehind, rfl⟩

end Token

namespace Expr

variable {first second : String} {a b : Expr}

theorem ofText_join
    (hfirst : ofText (some first) = .ok a)
    (hsecond : ofText (some second) = .ok b) :
    ∃ e, Joined a b e ∧ ofText (some (first ++ "+" ++ second)) = .ok e := by
  obtain ⟨u, hu, hread⟩ := bind_eq_ok_iff.1 ((ofText_eq _).symm.trans hfirst)
  obtain ⟨v, hv, hreadSecond⟩ := bind_eq_ok_iff.1 ((ofText_eq _).symm.trans hsecond)
  obtain ⟨hderives, hshallow⟩ := (ofTokens_eq_ok_iff u a).1 hread
  obtain ⟨hderivesSecond, hshallowSecond⟩ := (ofTokens_eq_ok_iff v b).1 hreadSecond
  obtain ⟨e, hjoined, hresult⟩ := hderives.join hderivesSecond
  refine ⟨e, hjoined, ?_⟩
  have hnesting : Token.Shallow (u ++ .operator .add :: v) := by
    rw [Token.shallow_iff] at hshallow hshallowSecond ⊢
    rw [Token.nesting_operation (level_of_derives hderives)]
    exact Nat.max_le.2 ⟨hshallow, hshallowSecond⟩
  rw [ofText_eq, Token.ofText_join hu hv, ok_bind, ofTokens_eq_ok_iff]
  exact ⟨hresult, hnesting⟩

/-- Two accepted texts with a plus sign between them are an accepted text.  Its letters are those
of the first text and then the new ones of the second.  Its value is the sum of the two values,
brought into the range of the integers by wrapping around.  If one of them is missing, the failure
is that of the first text that has one, and it names a letter without a number. -/
theorem ofText_joined_with_plus
    (hfirst : ofText (some first) = .ok a)
    (hsecond : ofText (some second) = .ok b) :
    ∃ e,
      ofText (some (first ++ "+" ++ second)) = .ok e
        ∧
      e.letters = a.letters ++ b.letters.filter (· ∉ a.letters)
        ∧
      ∀ values,
        (∀ m n,
          evaluateText first values = .ok m →
          evaluateText second values = .ok n →
          evaluateText (first ++ "+" ++ second) values = .ok (m + n))
          ∧
        (∀ failure,
          evaluateText first values = .error failure →
          evaluateText (first ++ "+" ++ second) values = .error failure ∧
          ∃ v, failure = .missingValue v)
          ∧
        (∀ m failure,
          evaluateText first values = .ok m →
          evaluateText second values = .error failure →
          evaluateText (first ++ "+" ++ second) values = .error failure ∧
          ∃ v, failure = .missingValue v) := by
  obtain ⟨e, hjoined, hresult⟩ := ofText_join hfirst hsecond
  refine ⟨e, hresult, hjoined.letters, ?_⟩
  intro values
  rw [evaluateText_of_ofText hfirst, evaluateText_of_ofText hsecond,
    evaluateText_of_ofText hresult, hjoined.evaluate, Expr.evaluate]
  refine ⟨?_, ?_, ?_⟩
  · intro m n hm hn
    rw [hm, hn]
    rfl
  · intro failure hfailed
    rw [hfailed]
    exact ⟨rfl, missingValue_of_evaluate hfailed⟩
  · intro m failure hm hfailed
    rw [hm, hfailed]
    exact ⟨rfl, missingValue_of_evaluate hfailed⟩

/-- The sum of two differences wraps around.  Without a number for `c` only the second text fails,
and without any number the first one does. -/
theorem ofText_joined_with_plus_differences :
    ∃ e,
      ofText (some ("2147483647 - b" ++ "+" ++ "c - b")) = .ok e ∧
      e.letters = [⟨'b', rfl⟩, ⟨'c', rfl⟩] ∧
      evaluateText ("2147483647 - b" ++ "+" ++ "c - b")
          ((Valuation.empty.insert ⟨'b', rfl⟩ 1).insert ⟨'c', rfl⟩ 5) =
        .ok (-2147483646) ∧
      evaluateText ("2147483647 - b" ++ "+" ++ "c - b") (Valuation.empty.insert ⟨'b', rfl⟩ 1) =
        .error (.missingValue ⟨'c', rfl⟩) ∧
      evaluateText ("2147483647 - b" ++ "+" ++ "c - b") Valuation.empty =
        .error (.missingValue ⟨'b', rfl⟩) := by
  have hfirst :
      ofText (some "2147483647 - b") =
        .ok (operation .subtract (literal 2147483647) (letter ⟨'b', rfl⟩)) := by
    rfl
  have hsecond :
      ofText (some "c - b") =
        .ok (operation .subtract (letter ⟨'c', rfl⟩) (letter ⟨'b', rfl⟩)) := by
    rfl
  obtain ⟨e, hresult, hletters, hvalues⟩ := ofText_joined_with_plus hfirst hsecond
  refine ⟨e, hresult, hletters, ?_, ?_, ?_⟩
  · exact (hvalues _).1 2147483646 4 rfl rfl
  · exact ((hvalues _).2.2 2147483646 _ rfl rfl).1
  · exact ((hvalues _).2.1 _ rfl).1

end Expr

end Reckoner
