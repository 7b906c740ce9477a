import Reckoner.Proofs.Acceptance

/-!
# Brackets that are open at a token

The signed balance of opening and closing brackets adds up over any tokens, which the number of
brackets left open does not.  In a phrase of the grammar it never falls below zero, and in the end
it is zero, however deep the brackets are nested.

If a letter gives way to level tokens, their nesting is added to the brackets that are open at the
letter.  So the limit on brackets is kept if it is kept at every occurrence of the letter.

**Results.**
* `balance_of_derives` and `balance_nonneg_of_derives`: the balance of a phrase and of its
  beginnings.
* `nesting_replace_le_iff`: the nesting of tokens in which a letter was replaced.
* `shallow_replace_iff`: when an accepted list respects the limit after a replacement.
-/

namespace Reckoner

namespace Token

section Definitions

/-- The number of brackets opened less the number of brackets closed. -/
def balance (tokens : List Token) : Int :=
  tokens.count .opening - tokens.count .closing

/-- Puts tokens in the place of a letter. -/
def replace (v : Letter) (inner : List Token) (token : Token) : List Token :=
  if token = .letter v then inner else [token]

/-- Wherever the letter occurs, `k` more brackets can be opened within the limit. -/
def LeavesRoom (v : Letter) (k : Nat) (tokens : List Token) : Prop :=
  ∀ before after,
    tokens = before ++ .letter v :: after →
    unclosed before + k ≤ Grammar.depthLimit

end Definitions

section Balance

@[simp] theorem balance_nil :
    balance [] = 0 := by
  rfl

theorem balance_append (u v : List Token) :
    balance (u ++ v) = balance u + balance v := by
  simp only [balance, List.count_append]
  omega

theorem balance_opening_cons (tokens : List Token) :
    balance (opening :: tokens) = 1 + balance tokens :=
  balance_append [opening] tokens

theorem balance_closing_cons (tokens : List Token) :
    balance (closing :: tokens) = -1 + balance tokens :=
  balance_append [closing] tokens

theorem balance_cons_of_not_bracket
    {token : Token}
    (h : token.isBracket = false)
    (tokens : List Token) :
    balance (token :: tokens) = balance tokens := by
  cases token with
  | constant _ | letter _ | operator _ =>
      simp [balance]
  | opening | closing =>
      cases h

theorem unclosed_eq_balance
    {tokens : List Token}
    (h : 0 ≤ balance tokens) :
    (unclosed tokens : Int) = balance tokens := by
  simp only [balance, unclosed] at h ⊢
  omega

end Balance

section Replacing

variable {v : Letter} {inner : List Token}

@[simp] theorem replace_letter_self :
    replace v inner (.letter v) = inner := by
  simp [replace]

theorem replace_of_ne
    {token : Token}
    (h : token ≠ .letter v) :
    replace v inner token = [token] := by
  simp [replace, h]

theorem deepen_of_not_bracket
    {token : Token}
    (h : token.isBracket = false)
    (k : Nat) :
    token.deepen k = k := by
  cases token with
  | constant _ | letter _ | operator _ =>
      rfl
  | opening | closing =>
      cases h

/-- The places of an element in a list: its head and the places in its tail. -/
theorem forall_place_cons_iff
    {α : Type} {P : List α → Prop}
    (x a : α)
    (rest : List α) :
    (∀ before after, a :: rest = before ++ x :: after → P before)
      ↔
    (a = x → P []) ∧ ∀ before after, rest = before ++ x :: after → P (a :: before) := by
  constructor
  · intro h
    refine ⟨?_, ?_⟩
    · rintro rfl
      exact h [] rest rfl
    · rintro before after rfl
      exact h (a :: before) after rfl
  · rintro ⟨hhead, htail⟩ before after hsplit
    cases before with
    | nil =>
        exact hhead (List.cons.inj hsplit).1
    | cons b before =>
        obtain ⟨rfl, hrest⟩ := List.cons.inj hsplit
        exact htail before after hrest

/-- The nesting of level tokens counts from the brackets that are open where they are put. -/
theorem nesting_replace_le_iff
    (hinner : Level inner)
    (w : List Token)
    (k : Nat) :
    nesting (w.flatMap (replace v inner)) ≤ k
      ↔
    nesting w ≤ k ∧
      ∀ before after, w = before ++ .letter v :: after → balance before + nesting inner ≤ k := by
  -- The bound is general because a bracket moves it for the tokens behind it.
  induction w generalizing k with
  | nil =>
      simp
  | cons token rest ih =>
      rw [forall_place_cons_iff, List.flatMap_cons, nesting_append, nesting_cons]
      by_cases hletter : token = .letter v
      · subst hletter
        have hsame : ∀ tokens, balance (letter v :: tokens) = balance tokens :=
          balance_cons_of_not_bracket rfl
        have hhere : balance [] + (nesting inner : Int) ≤ k ↔ nesting inner ≤ k := by
          simp
        simp only [replace_letter_self, hinner _, Nat.max_le, ih k, hsame, hhere, forall_const,
          deepen]
        tauto
      · rw [replace_of_ne hletter, nestingBefore_cons, nestingBefore_nil]
        simp only [hletter, false_imp_iff, true_and]
        cases hbracket : token.isBracket with
        | false =>
            simp only [deepen_of_not_bracket hbracket, balance_cons_of_not_bracket hbracket]
            exact ih k
        | true =>
            cases token with
            | constant _ | letter _ | operator _ =>
                cases hbracket
            | opening =>
                cases k with
                | zero =>
                    simp [deepen]
                | succ k =>
                    have hshift : ∀ before,
                        balance before + nesting inner ≤ k ↔
                          balance (opening :: before) + nesting inner ≤ (k + 1 : Nat) := by
                      intro before
                      rw [balance_opening_cons]
                      omega
                    simp only [deepen, Nat.add_le_add_iff_right, ih k, hshift]
            | closing =>
                have hshift : ∀ before,
                    balance before + nesting inner ≤ (k + 1 : Nat) ↔
                      balance (closing :: before) + nesting inner ≤ k := by
                  intro before
                  rw [balance_closing_cons]
                  omega
                simp only [deepen, Nat.sub_le_iff_le_add, ih (k + 1), hshift]

end Replacing

end Token

namespace Grammar

variable {phrase : Phrase} {w : List Token} {e : Expr}

theorem balance_of_derives
    (h : Derives phrase w e) :
    Token.balance w = 0 := by
  induction h with
  | ofTerm _ ih | ofFactor _ ih =>
      exact ih
  | additive _ _ _ ihL ihR | multiply _ _ ihL ihR =>
      rw [Token.balance_append, Token.balance_cons_of_not_bracket rfl, ihL, ihR]
      rfl
  | constant _ | letter _ =>
      rfl
  | bracket _ ih =>
      rw [Token.balance_append, Token.balance_opening_cons, ih]
      rfl

/-- No beginning of a phrase closes more brackets than it opens. -/
theorem balance_nonneg_of_derives
    {start : List Token}
    (h : Derives phrase w e)
    (hstart : start <+: w) :
    0 ≤ Token.balance start := by
  induction h generalizing start with
  | ofTerm _ ih | ofFactor _ ih =>
      exact ih hstart
  | constant _ | letter _ =>
      rcases List.prefix_cons_iff.1 hstart with rfl | ⟨rest, rfl, hrest⟩
      · exact Int.le_refl 0
      · rw [List.prefix_nil.1 hrest]
        exact Int.le_refl 0
  | @additive op u v _ _ _ left _ ihL ihR | @multiply u v _ _ left _ ihL ihR =>
      rcases List.prefix_or_prefix_of_prefix hstart (List.prefix_append u _) with
        hleft | ⟨rest, rfl⟩
      · exact ihL hleft
      · rw [Token.balance_append, balance_of_derives left, Int.zero_add]
        rcases List.prefix_cons_iff.1 ((List.prefix_append_right_inj u).1 hstart) with
          rfl | ⟨right, rfl, hright⟩
        · exact Int.le_refl 0
        · rw [Token.balance_cons_of_not_bracket rfl]
          exact ihR hright
  | @bracket w _ inner ih =>
      rcases List.prefix_concat_iff.1 hstart with rfl | hopened
      · exact Int.le_of_eq (balance_of_derives (.bracket inner)).symm
      · rcases List.prefix_cons_iff.1 hopened with rfl | ⟨rest, rfl, hrest⟩
        · exact Int.le_refl 0
        · have hinner := ih hrest
          rw [Token.balance_opening_cons]
          omega

end Grammar

namespace Token

/-- After a letter of an accepted list was replaced by level tokens, the limit is kept if each of
its places left room for their nesting. -/
theorem shallow_replace_iff
    {w inner : List Token} {e : Expr}
    (h : Expr.ofTokens w = .ok e)
    (hinner : Level inner)
    (v : Letter) :
    Shallow (w.flatMap (replace v inner)) ↔ LeavesRoom v (nesting inner) w := by
  obtain ⟨hderives, hshallow⟩ := (Expr.ofTokens_eq_ok_iff w e).1 h
  rw [shallow_iff] at hshallow
  rw [shallow_iff, nesting_replace_le_iff hinner]
  simp only [hshallow, true_and]
  refine forall_congr' fun before => forall_congr' fun after => imp_congr_right ?_
  rintro rfl
  have hnonneg : 0 ≤ balance before :=
    Grammar.balance_nonneg_of_derives hderives (List.prefix_append _ _)
  have hopen := unclosed_eq_balance hnonneg
  omega

end Token
end Reckoner
