import Reckoner.Proofs.Landmarks
import Reckoner.Proofs.Normalising
import Reckoner.Proofs.Rereading

/-!
# The order of first appearance

The letters of an expression are collected from its operands.  Which operands stand where in the
expression has been settled by the ranks of the operators and by the brackets, while the letters are
to be listed as they come in the text.  Both orders are the same: no operand changes sides when it
is joined to another one, so that the operands of an expression, from left to right, are those of
the tokens that it was read from.

**Results.**
* `foldl_collect`: collecting letters one by one keeps the first of each.
* `letters_of_derives`: the letters of a phrase are those of its expression.
* `letters_of_ofText`: the letters of a text are those of its tokens.
* `normalise_keeps`: normalising never changes what a calculator holds.
* `letters_in_order_of_appearance`: the letters of what is read, and of what is written again.
-/

namespace Reckoner

open Grammar

section Definitions

/-- The letter itself, if the token is one. -/
def Token.letter? : Token → Option Letter
  | letter v => some v
  | constant _ | operator _ | opening | closing => none

/-- The letters among tokens in the order of their first places, each once. -/
def Token.letters (tokens : List Token) : List Letter :=
  (tokens.filterMap letter?).eraseDups

/-- The letters in a text in the order of their first places, each once. -/
def Text.letters (text : String) : List Letter :=
  (text.toList.filterMap Letter.ofChar?).eraseDups

/-- Appends a letter to those that were seen, unless it is one of them. -/
def Letter.collect (seen : List Letter) (v : Letter) : List Letter :=
  if v ∈ seen then seen else seen ++ [v]

end Definitions

section Collecting

/-- Collecting letters one by one keeps the first of each that was not seen before. -/
theorem foldl_collect (list seen : List Letter) :
    list.foldl Letter.collect seen = seen ++ (list.removeAll seen).eraseDups := by
  induction list generalizing seen with
  | nil =>
      simp
  | cons v rest ih =>
      rw [List.foldl_cons, ih, Letter.collect]
      by_cases hv : v ∈ seen
      · have hskipped : (v :: rest).removeAll seen = rest.removeAll seen := by
          simp [List.removeAll, hv]
        rw [if_pos hv, hskipped]
      · have hkept : (v :: rest).removeAll seen = v :: rest.removeAll seen := by
          simp [List.removeAll, hv]
        have hrest :
            (rest.removeAll seen).filter (fun w => !w == v) = rest.removeAll (seen ++ [v]) := by
          rw [List.removeAll, List.removeAll, List.filter_filter]
          apply List.filter_congr
          intro w _
          simp [Bool.and_comm, beq_eq_decide]
        rw [if_neg hv, hkept, List.eraseDups_cons, hrest, List.append_assoc, List.singleton_append]

theorem nodup_foldl_collect
    {seen : List Letter}
    (h : seen.Nodup)
    (list : List Letter) :
    (list.foldl Letter.collect seen).Nodup := by
  induction list generalizing seen with
  | nil =>
      exact h
  | cons v rest ih =>
      apply ih
      unfold Letter.collect
      split
      next =>
        exact h
      next hv =>
        refine List.nodup_append.2 ⟨h, by simp, ?_⟩
        rintro w hw _ hlast rfl
        exact hv (List.mem_singleton.1 hlast ▸ hw)

end Collecting

namespace Expr

/-- The letters of an expression are collected from its operands, one after another. -/
theorem lettersAfter_eq_foldl
    (seen : List Letter)
    (e : Expr) :
    e.lettersAfter seen = (e.inorder.filterMap Token.letter?).foldl Letter.collect seen := by
  induction e generalizing seen with
  | literal n | letter v =>
      rfl
  | operation op left right ihL ihR =>
      calc (operation op left right).lettersAfter seen
          = right.lettersAfter (left.lettersAfter seen) := rfl
        _ = ((left.inorder.filterMap Token.letter?) ++
              (right.inorder.filterMap Token.letter?)).foldl Letter.collect seen := by
            rw [ihR, ihL, List.foldl_append]
        _ = ((operation op left right).inorder.filterMap Token.letter?).foldl
              Letter.collect seen := by
            rw [inorder, List.filterMap_append]
            rfl

theorem nodup_letters (e : Expr) : e.letters.Nodup := by
  rw [letters, lettersAfter_eq_foldl]
  exact nodup_foldl_collect List.nodup_nil _

end Expr

section Reading

variable {phrase : Phrase} {w : List Token} {e : Expr} {text : String}

/-- The letters of a phrase are those of its expression, in the same order. -/
theorem Grammar.letters_of_derives
    (h : Derives phrase w e) :
    e.letters = Token.letters w := by
  have hbare : (Token.bare w).filterMap Token.letter? = w.filterMap Token.letter? := by
    rw [Token.bare, List.filterMap_filter]
    apply List.filterMap_congr
    intro token _
    cases token <;> rfl
  have hnone : (w.filterMap Token.letter?).removeAll [] = w.filterMap Token.letter? := by
    simp [List.removeAll]
  rw [Expr.letters, Expr.lettersAfter_eq_foldl, ← bare_eq_inorder h, hbare, foldl_collect, hnone,
    List.nil_append, Token.letters]

theorem Token.letter?_eq_some_iff
    {token : Token} {v : Letter} :
    token.letter? = some v ↔ token = .letter v := by
  cases token <;> simp [letter?]

/-- The letters of a text are those of its tokens, in the same order. -/
theorem Token.letters_of_ofText
    (h : ofText (some text) = .ok w) :
    Text.letters text = letters w := by
  have htext : text.toList.filterMap Letter.ofChar? =
      (text.toList.filterMap Text.landmark).filterMap letter? := by
    rw [List.filterMap_filterMap]
    apply List.filterMap_congr
    intro c _
    apply Option.ext
    intro v
    rw [Letter.ofChar?_eq_some_iff, Option.bind_eq_some_iff]
    simp only [letter?_eq_some_iff, exists_eq_right, Text.landmark_eq_letter_iff]
    exact eq_comm
  have htokens : w.filterMap letter? = (w.filterMap landmark).filterMap letter? := by
    rw [List.filterMap_filterMap]
    apply List.filterMap_congr
    intro token _
    cases token <;> rfl
  rw [Text.letters, letters, htext, htokens, landmarks_eq_of_ofText h]

/-- A text is read by way of its tokens, and all three have the same letters. -/
theorem Expr.letters_of_ofText
    (h : ofText (some text) = .ok e) :
    ∃ w,
      Token.ofText (some text) = .ok w ∧
      e.letters = Token.letters w ∧
      e.letters = Text.letters text := by
  obtain ⟨w, hw, hread⟩ := bind_eq_ok_iff.1 ((ofText_eq _).symm.trans h)
  have hletters : e.letters = Token.letters w :=
    letters_of_derives ((ofTokens_eq_ok_iff w e).1 hread).1
  exact ⟨w, hw, hletters, hletters.trans (Token.letters_of_ofText hw).symm⟩

/-- Normalising never changes what a calculator holds, whether it succeeds or not. -/
theorem Calculator.normalise_keeps (calculator : Calculator) :
    calculator.normalise.2 = calculator := by
  by_cases h : calculator.tree.Readable
  · have hread := Expr.ofText_toText_of_readable h
    rw [normalise, replace_of_ofText hread]
  · obtain ⟨failure, hrefused, _⟩ := Expr.ofText_toText_of_not_readable h
    rw [normalise, replace, ofText_eq, hrefused]
    rfl

/-- The letters of an expression are listed in the order in which they appear first, each once: in
its sparing tokens, and in the tokens or the text that it was read from.  Normalising keeps them,
and for an accepted text it succeeds. -/
theorem Expr.letters_in_order_of_appearance :
    (∀ e : Expr,
      e.letters.Nodup ∧
      e.letters = Token.letters e.toTokens ∧
      (Calculator.normalise ⟨e⟩).2.tree.letters = e.letters)
      ∧
    (∀ w e, ofTokens w = .ok e → e.letters = Token.letters w)
      ∧
    (∀ text e,
      ofText (some text) = .ok e →
      (∃ w,
        Token.ofText (some text) = .ok w ∧
        e.letters = Token.letters w ∧
        e.letters = Text.letters text) ∧
      (Calculator.normalise ⟨e⟩).1 = .ok () ∧
      Text.letters e.toText = Text.letters text) := by
  refine ⟨?_, ?_, ?_⟩
  · intro e
    refine ⟨e.nodup_letters, letters_of_derives (derives_toTokens e), ?_⟩
    rw [Calculator.normalise_keeps]
  · intro w e h
    exact letters_of_derives ((ofTokens_eq_ok_iff w e).1 h).1
  · intro text e h
    have hread := letters_of_ofText h
    have hback := ofText_toText h
    refine ⟨hread, congrArg Prod.fst (Calculator.replace_of_ofText hback ⟨e⟩), ?_⟩
    obtain ⟨_, _, _, htext⟩ := hread
    obtain ⟨_, _, _, hnormal⟩ := letters_of_ofText hback
    rw [← hnormal, htext]

/-- The letter `b` comes before `a`, and both are met again between the second brackets. -/
theorem Expr.letters_in_order_of_appearance_products :
    ∃ e,
      ofText (some "(b * 2) - (a * b + a)") = .ok e ∧
      e.letters = [⟨'b', rfl⟩, ⟨'a', rfl⟩] ∧
      Token.letters e.toTokens = [⟨'b', rfl⟩, ⟨'a', rfl⟩] ∧
      Text.letters e.toText = [⟨'b', rfl⟩, ⟨'a', rfl⟩] := by
  have hfirst : Text.letters "(b * 2) - (a * b + a)" = [⟨'b', rfl⟩, ⟨'a', rfl⟩] := by
    decide
  obtain ⟨hwritten, _, hread⟩ := letters_in_order_of_appearance
  obtain ⟨e, h⟩ : ∃ e, ofText (some "(b * 2) - (a * b + a)") = .ok e := ⟨_, rfl⟩
  obtain ⟨⟨_, _, _, hletters⟩, _, hnormal⟩ := hread _ e h
  obtain ⟨_, hsparing, _⟩ := hwritten e
  rw [hfirst] at hletters hnormal
  exact ⟨e, h, hletters, hsparing ▸ hletters, hnormal⟩

end Reading

end Reckoner
