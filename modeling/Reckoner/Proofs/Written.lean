import Mathlib.Data.List.Basic
import Reckoner.Proofs.Legible

/-!
# What a text shows

Many texts cannot be read back, such as those of negative constants.  Still they show what was
written.  A number ends where its digits end.  The sign of a number stands directly before it, and
an operator stands between spaces, so that a minus sign is never taken for the other one.

**Results.**
* `append_inj_of_kind`: a list comes apart in one way where the elements of a kind end.
* `ofInt32_append_inj`: a number is told from what is written behind it.
* `spell_inj`: lists of tokens in which no two constants touch have different texts.
-/

namespace Reckoner

section Borders

variable {α : Type} {p : α → Bool}

theorem takeWhile_append_of_kind
    {a u : List α}
    (ha : ∀ x ∈ a, p x = true)
    (hu : u.head?.any p = false) :
    (a ++ u).takeWhile p = a := by
  have hnone : u.takeWhile p = [] := by
    cases u with
    | nil =>
        rfl
    | cons x rest =>
        exact List.takeWhile_cons_of_neg (by simpa using hu)
  rw [List.takeWhile_append_of_pos ha, hnone, List.append_nil]

/-- A list comes apart in one way where the elements of a kind end. -/
theorem append_inj_of_kind
    {a b u v : List α}
    (ha : ∀ x ∈ a, p x = true)
    (hb : ∀ x ∈ b, p x = true)
    (hu : u.head?.any p = false)
    (hv : v.head?.any p = false)
    (h : a ++ u = b ++ v) :
    a = b ∧ u = v := by
  have hab : a = b := by
    rw [← takeWhile_append_of_kind ha hu, h, takeWhile_append_of_kind hb hv]
  subst hab
  exact ⟨rfl, List.append_cancel_left h⟩

end Borders

namespace Decimal

theorem ofNat_inj
    {m n : Nat}
    (h : ofNat m = ofNat n) :
    m = n := by
  rw [← value_ofNat m, h, value_ofNat]

theorem minus_cons_ne_ofNat_append
    (n : Nat)
    (u v : List Char) :
    '-' :: u ≠ ofNat n ++ v := by
  obtain ⟨c, rest, hfirst⟩ := List.exists_cons_of_ne_nil (ofNat_ne_nil n)
  intro h
  have hdigit : c.isDigit = true := by
    apply isDigit_of_mem_ofNat (n := n)
    simp [hfirst]
  rw [hfirst, List.cons_append] at h
  obtain ⟨rfl, _⟩ := List.cons.inj h
  exact absurd hdigit (by decide)

variable {m n : Int32} {u v : List Char}

/-- A number is told from what is written behind it, unless that begins with a digit. -/
theorem ofInt32_append_inj
    (hu : u.head?.any Char.isDigit = false)
    (hv : v.head?.any Char.isDigit = false)
    (h : ofInt32 m ++ u = ofInt32 n ++ v) :
    m = n ∧ u = v := by
  have hdigits : ∀ k, ∀ c ∈ ofNat k, c.isDigit = true :=
    fun _ _ => isDigit_of_mem_ofNat
  have hsame : ∀ k l, ofNat k ++ u = ofNat l ++ v → k = l ∧ u = v := by
    intro k l hkl
    obtain ⟨hnumber, hrest⟩ := append_inj_of_kind (hdigits k) (hdigits l) hu hv hkl
    exact ⟨ofNat_inj hnumber, hrest⟩
  unfold ofInt32 at h
  by_cases hm : m.toInt < 0
  · by_cases hn : n.toInt < 0
    · rw [if_pos hm, if_pos hn] at h
      obtain ⟨habs, hrest⟩ := hsame _ _ (List.cons.inj h).2
      exact ⟨Int32.toInt_inj.1 (by omega), hrest⟩
    · rw [if_pos hm, if_neg hn] at h
      exact absurd h (minus_cons_ne_ofNat_append _ _ _)
  · by_cases hn : n.toInt < 0
    · rw [if_neg hm, if_pos hn] at h
      exact absurd h.symm (minus_cons_ne_ofNat_append _ _ _)
    · rw [if_neg hm, if_neg hn] at h
      obtain ⟨habs, hrest⟩ := hsame _ _ h
      exact ⟨Int32.toInt_inj.1 (by omega), hrest⟩

theorem ofInt32_inj
    (h : ofInt32 m = ofInt32 n) :
    m = n := by
  have hnone : ([] : List Char).head?.any Char.isDigit = false := by
    rfl
  exact (ofInt32_append_inj hnone hnone (congrArg (· ++ []) h)).1

end Decimal

namespace Token

theorem head?_spaced_append
    (token : Token)
    (u : List Char) :
    (token.spaced ++ u).head? = token.spaced.head? :=
  List.head?_append_of_ne_nil _ token.spaced_ne_nil

/-- Only constants are written with a digit or a minus sign in front. -/
theorem isConstant_iff_head
    {token : Token} {c : Char}
    (h : token.spaced.head? = some c) :
    token.isConstant = true ↔ c.isDigit = true ∨ c = '-' := by
  cases token with
  | constant n =>
      have hmem : c ∈ Decimal.ofInt32 n := List.mem_of_head? h
      exact iff_of_true rfl (Decimal.isDigit_or_minus_of_mem_ofInt32 hmem)
  | letter v =>
      obtain rfl : v.char = c := Option.some.inj h
      have hminus : v.char ≠ '-' := v.char_ne (by decide)
      simp [isConstant, Text.isDigit_char, hminus]
  | operator op =>
      obtain rfl : ' ' = c := Option.some.inj h
      simp [isConstant]
  | opening | closing =>
      cases h
      simp [isConstant]

/-- A token that is no constant ends after as many characters as its first one says. -/
theorem spaced_append_inj_of_not_constant
    {a b : Token} {u v : List Char}
    (ha : a.isConstant = false)
    (hb : b.isConstant = false)
    (h : a.spaced ++ u = b.spaced ++ v) :
    a = b ∧ u = v := by
  obtain ⟨hhead, htail⟩ :
      a.spaced.head? = b.spaced.head? ∧ (a.spaced ++ u).tail = (b.spaced ++ v).tail := by
    rw [← a.head?_spaced_append u, h, b.head?_spaced_append]
    exact ⟨rfl, rfl⟩
  cases a with
  | constant n =>
      cases ha
  | letter x =>
      cases b with
      | constant n =>
          cases hb
      | letter y =>
          exact ⟨congrArg letter (Letter.ext (Option.some.inj hhead)), htail⟩
      | operator _ | opening | closing =>
          exact absurd (Option.some.inj hhead) (x.char_ne (by decide))
  | operator op =>
      cases b with
      | constant n =>
          cases hb
      | letter y =>
          exact absurd (Option.some.inj hhead).symm (y.char_ne (by decide))
      | operator other =>
          simp only [spaced, List.cons_append, List.nil_append, List.cons.injEq, true_and,
            Operator.symbol_inj] at h
          exact ⟨congrArg operator h.1, h.2⟩
      | opening | closing =>
          cases hhead
  | opening =>
      cases b with
      | opening =>
          exact ⟨rfl, htail⟩
      | letter y =>
          exact absurd (Option.some.inj hhead).symm (y.char_ne (by decide))
      | constant n =>
          cases hb
      | operator _ | closing =>
          cases hhead
  | closing =>
      cases b with
      | closing =>
          exact ⟨rfl, htail⟩
      | letter y =>
          exact absurd (Option.some.inj hhead).symm (y.char_ne (by decide))
      | constant n =>
          cases hb
      | operator _ | opening =>
          cases hhead

/-- A token is told from what is written behind it. -/
theorem spaced_append_inj
    {a b : Token} {u v : List Char}
    (hu : a.isConstant = true → u.head?.any Char.isDigit = false)
    (hv : b.isConstant = true → v.head?.any Char.isDigit = false)
    (h : a.spaced ++ u = b.spaced ++ v) :
    a = b ∧ u = v := by
  have hkind : a.isConstant = b.isConstant := by
    obtain ⟨c, _, hfirst⟩ := List.exists_cons_of_ne_nil a.spaced_ne_nil
    have ha : a.spaced.head? = some c := by
      simp [hfirst]
    have hb : b.spaced.head? = some c := by
      rw [← b.head?_spaced_append v, ← h, a.head?_spaced_append, ha]
    rw [Bool.eq_iff_iff, isConstant_iff_head ha, isConstant_iff_head hb]
  cases hconstant : a.isConstant with
  | false =>
      exact spaced_append_inj_of_not_constant hconstant (hkind ▸ hconstant) h
  | true =>
      cases a with
      | constant m =>
          cases b with
          | constant n =>
              obtain ⟨rfl, hrest⟩ := Decimal.ofInt32_append_inj (hu rfl) (hv rfl) h
              exact ⟨rfl, hrest⟩
          | letter _ | operator _ | opening | closing =>
              cases hkind
      | letter _ | operator _ | opening | closing =>
          cases hconstant

theorem not_isDigit_after
    {token : Token} {rest : List Token}
    (h : (token :: rest).IsChain Apart)
    (hconstant : token.isConstant = true) :
    (rest.flatMap spaced).head?.any Char.isDigit = false := by
  cases rest with
  | nil =>
      rfl
  | cons next rest =>
      have hnext : next.isConstant = false := by
        rcases (List.isChain_cons_cons.1 h).1 with hfirst | hnext
        · rw [hconstant] at hfirst
          cases hfirst
        · exact hnext
      obtain ⟨c, _, hfirst⟩ := List.exists_cons_of_ne_nil next.spaced_ne_nil
      have hhead : next.spaced.head? = some c := by
        simp [hfirst]
      have hdigit : ¬ (c.isDigit = true ∨ c = '-') := by
        rw [← isConstant_iff_head hhead, hnext]
        simp
      rw [List.flatMap_cons, head?_spaced_append, hhead, Option.any_some, Bool.eq_false_iff]
      exact fun h => hdigit (.inl h)

/-- Lists of tokens in which no two constants touch have different texts. -/
theorem spell_inj
    {u v : List Token}
    (hu : u.IsChain Apart)
    (hv : v.IsChain Apart)
    (h : spell u = spell v) :
    u = v := by
  have hchars : u.flatMap spaced = v.flatMap spaced := by
    rw [← toList_spell, h, toList_spell]
  clear h
  induction u generalizing v with
  | nil =>
      cases v with
      | nil =>
          rfl
      | cons other more =>
          exact absurd (List.append_eq_nil_iff.1 hchars.symm).1 other.spaced_ne_nil
  | cons token rest ih =>
      cases v with
      | nil =>
          exact absurd (List.append_eq_nil_iff.1 hchars).1 token.spaced_ne_nil
      | cons other more =>
          obtain ⟨rfl, hrest⟩ :=
            spaced_append_inj (not_isDigit_after hu) (not_isDigit_after hv) hchars
          have htail : rest = more := ih hu.tail hv.tail hrest
          rw [htail]

end Token

end Reckoner
