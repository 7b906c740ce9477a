import Reckoner.Proofs.Balance
import Reckoner.Proofs.Sparing
import Reckoner.Proofs.Written

/-!
# The grammar is unambiguous

A list of tokens is a phrase of at most one expression, however deep its brackets are nested.  The
reader cannot show this, since it refuses what is nested too deeply.

An operator is outermost if all brackets in front of it are closed.  Every outermost operator of a
phrase ranks at least as high as the phrase, so that a factor has none.  If an operation could be
taken apart at two places, the operator on the right would be outermost in the right operand of the
one on the left, and the other way round, so that each of them would rank above the other.

Since the sparing tokens of an expression are a phrase of it, they belong to no other expression,
and neither does the text.

**Results.**
* `rank_le_of_outermost`: the outermost operators of a phrase.
* `Derives.operands`: an operation is taken apart at one place only.
* `Derives.unique`: a list of tokens is a phrase of at most one expression.
* `toText_identifies`: different expressions have different texts.
-/

namespace Reckoner

open Grammar

section Splitting

/-- Two ways to take a list apart at an element are the same, or one element is behind the
other. -/
theorem append_cons_eq_append_cons
    {α : Type} {x y : α} {u v u' v' : List α}
    (h : u ++ x :: v = u' ++ y :: v') :
    (u = u' ∧ x = y ∧ v = v')
      ∨
    (∃ between, u' = u ++ x :: between ∧ v = between ++ y :: v')
      ∨
    (∃ between, u = u' ++ y :: between ∧ v' = between ++ x :: v) := by
  rcases List.append_eq_append_iff.1 h with ⟨rest, hu, hv⟩ | ⟨rest, hu, hv⟩
  · cases rest with
    | nil =>
        obtain ⟨hxy, hvv⟩ := List.cons.inj hv
        exact .inl ⟨by rw [hu, List.append_nil], hxy, hvv⟩
    | cons z between =>
        obtain ⟨rfl, hvv⟩ := List.cons.inj hv
        exact .inr (.inl ⟨between, hu, hvv⟩)
  · cases rest with
    | nil =>
        obtain ⟨hyx, hvv⟩ := List.cons.inj hv
        exact .inl ⟨by rw [hu, List.append_nil], hyx.symm, hvv.symm⟩
    | cons z between =>
        obtain ⟨rfl, hvv⟩ := List.cons.inj hv
        exact .inr (.inr ⟨between, hu, hvv⟩)

end Splitting

namespace Grammar

variable {phrase other : Phrase} {w u v : List Token} {a b e : Expr} {op : Operator}

section Outermost

/-- No operator between brackets is outermost. -/
theorem balance_ne_zero_of_enclose
    (h : Derives .expression w e)
    (hsplit : Expr.enclose w = u ++ .operator op :: v) :
    Token.balance u ≠ 0 := by
  cases u with
  | nil =>
      cases (List.cons.inj hsplit).1
  | cons first rest =>
      obtain ⟨rfl, hinner⟩ := List.cons.inj hsplit
      have hprefix : rest <+: w := by
        rcases List.prefix_concat_iff.1 ⟨_, hinner.symm⟩ with hall | hprefix
        · have hlength := congrArg List.length hinner
          rw [hall] at hlength
          simp at hlength
        · exact hprefix
      have hopen := balance_nonneg_of_derives h hprefix
      rw [Token.balance_opening_cons]
      omega

/-- An outermost operator of a phrase ranks at least as high as the phrase. -/
theorem rank_le_of_outermost
    (h : Derives phrase w e)
    (hsplit : w = u ++ .operator op :: v)
    (hu : Token.balance u = 0) :
    phrase.rank ≤ op.rank := by
  induction h generalizing u v with
  | ofTerm _ _ | additive _ _ _ _ _ =>
      exact Nat.zero_le _
  | ofFactor _ ih =>
      exact Nat.le_trans (by decide) (ih hsplit hu)
  | multiply left _ ihL ihR =>
      rcases append_cons_eq_append_cons hsplit with
        ⟨_, hsame, _⟩ | ⟨between, rfl, hright⟩ | ⟨between, hleft, _⟩
      · cases hsame
        exact Nat.le_refl _
      · rw [Token.balance_append, balance_of_derives left, Int.zero_add,
          Token.balance_cons_of_not_bracket rfl] at hu
        exact Nat.le_trans (by decide) (ihR hright hu)
      · exact ihL hleft hu
  | constant _ | letter _ =>
      rcases List.cons_eq_append_iff.1 hsplit with ⟨_, hsame⟩ | ⟨rest, _, hrest⟩
      · cases hsame
      · simp at hrest
  | bracket inner _ =>
      exact absurd hu (balance_ne_zero_of_enclose inner hsplit)

/-- A factor has no outermost operator. -/
theorem not_outermost_of_factor
    (h : Derives .factor (u ++ .operator op :: v) e) :
    Token.balance u ≠ 0 := by
  intro hu
  have hfactor : 2 ≤ op.rank := rank_le_of_outermost h rfl hu
  have hrank := op.rank_le_one
  omega

end Outermost

section Operands

theorem rank_ofRank
    {k : Nat}
    (h : k ≤ 2) :
    (Phrase.ofRank k).rank = k := by
  match k with
  | 0 | 1 | 2 =>
      rfl
  | _ + 3 =>
      omega

/-- A sum or difference sign asks for an expression and a term. -/
theorem additive_operands
    (hop : op.IsAdditive) :
    Phrase.ofRank op.rank = .expression ∧ Phrase.ofRank (op.rank + 1) = .term := by
  rcases hop with rfl | rfl <;> exact ⟨rfl, rfl⟩

/-- A phrase is a factor, or it has an operator with two operands of the fitting ranks. -/
theorem Derives.root_or_factor
    (h : Derives phrase w e) :
    (∃ op u v a b,
      w = u ++ .operator op :: v ∧
      e = .operation op a b ∧
      Derives (.ofRank op.rank) u a ∧
      Derives (.ofRank (op.rank + 1)) v b)
      ∨
    Derives .factor w e := by
  induction h with
  | ofTerm _ ih | ofFactor _ ih =>
      exact ih
  | @additive op u v a b hop left right _ _ =>
      obtain ⟨hleft, hright⟩ := additive_operands hop
      exact .inl ⟨op, u, v, a, b, rfl, rfl, hleft ▸ left, hright ▸ right⟩
  | @multiply u v a b left right _ _ =>
      exact .inl ⟨.multiply, u, v, a, b, rfl, rfl, left, right⟩
  | constant n =>
      exact .inr (.constant n)
  | letter v =>
      exact .inr (.letter v)
  | bracket inner _ =>
      exact .inr (.bracket inner)

/-- Of two operators that tokens may be taken apart at, the second one is not behind the first. -/
theorem Derives.not_behind
    {op op' : Operator} {u v between v' : List Token} {a b a' : Expr}
    (left : Derives (.ofRank op.rank) u a)
    (right : Derives (.ofRank (op.rank + 1)) v b)
    (left' : Derives (.ofRank op'.rank) (u ++ .operator op :: between) a') :
    v ≠ between ++ .operator op' :: v' := by
  intro hright
  have hu : Token.balance u = 0 := balance_of_derives left
  have hbetween : Token.balance between = 0 := by
    have hsum := balance_of_derives left'
    rw [Token.balance_append, hu, Token.balance_cons_of_not_bracket rfl] at hsum
    omega
  -- Each of the two operators would be outermost in an operand of the other one.
  have hbelow := rank_le_of_outermost left' rfl hu
  have habove := rank_le_of_outermost right hright hbetween
  have hrank := op.rank_le_one
  have hrank' := op'.rank_le_one
  rw [rank_ofRank (by omega)] at hbelow habove
  omega

/-- An operation is taken apart at one place only. -/
theorem Derives.operands
    (left : Derives (.ofRank op.rank) u a)
    (right : Derives (.ofRank (op.rank + 1)) v b)
    (h : Derives phrase (u ++ .operator op :: v) e) :
    ∃ c d,
      e = .operation op c d ∧
      Derives (.ofRank op.rank) u c ∧
      Derives (.ofRank (op.rank + 1)) v d := by
  rcases h.root_or_factor with ⟨op', u', v', c, d, hsplit, rfl, hleft, hright⟩ | hfactor
  · rcases append_cons_eq_append_cons hsplit with
      ⟨rfl, hop, rfl⟩ | ⟨between, rfl, hbehind⟩ | ⟨between, rfl, hbehind⟩
    · cases hop
      exact ⟨c, d, rfl, hleft, hright⟩
    · exact absurd hbehind (left.not_behind right hleft)
    · exact absurd hbehind (hleft.not_behind hright left)
  · exact absurd (balance_of_derives left) (not_outermost_of_factor hfactor)

/-- What is a factor of one expression is not an operation of another. -/
theorem Derives.factor
    (ha : Derives .factor w a)
    (hb : Derives phrase w b) :
    Derives .factor w b := by
  rcases hb.root_or_factor with ⟨op, u, v, c, d, rfl, _, left, _⟩ | hfactor
  · exact absurd (balance_of_derives left) (not_outermost_of_factor ha)
  · exact hfactor

theorem Derives.of_enclose
    (h : Derives .factor (Expr.enclose w) e) :
    Derives .expression w e := by
  generalize hw : Expr.enclose w = tokens at h
  cases h with
  | constant _ | letter _ =>
      simp [Expr.enclose] at hw
  | bracket inner =>
      have hsame := List.append_cancel_right (List.cons.inj hw).2
      rw [hsame]
      exact inner

end Operands

/-- A list of tokens is a phrase of at most one expression. -/
theorem Derives.unique
    (ha : Derives phrase w a)
    (hb : Derives other w b) :
    a = b := by
  induction ha generalizing other b with
  | ofTerm _ ih | ofFactor _ ih =>
      exact ih hb
  | @additive op u v _ _ hop left right ihL ihR =>
      obtain ⟨hleft, hright⟩ := additive_operands hop
      rw [← hleft] at left
      rw [← hright] at right
      obtain ⟨c, d, rfl, hc, hd⟩ := left.operands right hb
      rw [ihL hc, ihR hd]
  | @multiply u v first second left right ihL ihR =>
      have hleft : Derives (.ofRank Operator.multiply.rank) u first := left
      have hright : Derives (.ofRank (Operator.multiply.rank + 1)) v second := right
      obtain ⟨c, d, rfl, hc, hd⟩ := hleft.operands hright hb
      rw [ihL hc, ihR hd]
  | constant n =>
      cases (Derives.constant n).factor hb
      rfl
  | letter v =>
      cases (Derives.letter v).factor hb
      rfl
  | bracket inner ih =>
      exact ih ((Derives.bracket inner).factor hb).of_enclose

end Grammar

namespace Expr

theorem toTokens_inj
    {a b : Expr}
    (h : a.toTokens = b.toTokens) :
    a = b :=
  (derives_expression_toTokens a).unique (h ▸ derives_expression_toTokens b)

theorem toText_inj
    {a b : Expr}
    (h : a.toText = b.toText) :
    a = b :=
  toTokens_inj
    (Token.spell_inj
      (isChain_apart_of_derives (derives_toTokens a))
      (isChain_apart_of_derives (derives_toTokens b))
      h)

/-- Different expressions have different texts, even where a literal is negative or the brackets
are nested too deeply for the text to be read.  So two accepted texts are read as the same
expression exactly if their normal forms are the same. -/
theorem toText_identifies :
    (∀ a b : Expr, a.toText = b.toText → a = b)
      ∧
    (∀ first second a b,
      ofText (some first) = .ok a →
      ofText (some second) = .ok b →
      (ofText (some first) = ofText (some second)
          ↔
        toText <$> ofText (some first) = toText <$> ofText (some second))) := by
  refine ⟨fun a b => toText_inj, ?_⟩
  intro first second a b hfirst hsecond
  rw [hfirst, hsecond]
  constructor
  · intro hsame
    rw [hsame]
  · intro hsame
    have htext : a.toText = b.toText := Except.ok.inj hsame
    rw [toText_inj htext]

/-- The texts of `3 - -2` and of 300 differences nested to the right are refused, and yet they are
not those of `3 - 2` and of 299 differences.  Where a text is read, its brackets and spaces play no
part. -/
theorem toText_identifies_unread :
    (operation .subtract (literal 3) (literal (-2))).toText ≠
        (operation .subtract (literal 3) (literal 2)).toText
      ∧
    (differences 300).toText ≠ (differences 299).toText
      ∧
    ofText (some "((a)) * (b-1)") = ofText (some "a*((b - 1))")
      ∧
    ofText (some "a - (b - 1)") ≠ ofText (some "a - b - 1") := by
  obtain ⟨hdifferent, hread⟩ := toText_identifies
  refine ⟨?_, ?_, ?_, ?_⟩
  · intro hsame
    cases hdifferent _ _ hsame
  · intro hsame
    have hnesting := congrArg (fun e => Token.nesting e.toTokens) (hdifferent _ _ hsame)
    simp only [nesting_differences] at hnesting
    cases hnesting
  · exact (hread "((a)) * (b-1)" "a*((b - 1))" _ _ rfl rfl).2 rfl
  · intro hsame
    have htexts := (hread "a - (b - 1)" "a - b - 1" _ _ rfl rfl).1 hsame
    exact absurd htexts (by decide)

end Expr

end Reckoner
