import Mathlib.Data.List.Chain
import Reckoner.Expr.Reading
import Reckoner.Proofs.Elements
import Reckoner.Proofs.Outcome

/-!
# Token lists that a text can express

A text shows no minus sign as part of a number, and nothing separates two numbers.  So a list of
tokens is legible if its constants have no sign and no two of them touch.  The text of a legible
list is cut into the characters of its tokens and read back as the same list.

**Results.**
* `split_spell`: the text of a list is cut into the pieces of its tokens, unless two constants
  touch.
* `ofText_spell`: a legible list that is not empty is read back.
* `unsigned_of_ofText`: constants that are read have no sign.
-/

namespace Reckoner
namespace Token

section Definitions

/-- A token that is no negative constant. -/
def Unsigned : Token → Prop
  | constant n => 0 ≤ n
  | letter _ | operator _ | opening | closing => True

def isConstant : Token → Bool
  | constant _ => true
  | letter _ | operator _ | opening | closing => false

/-- Two tokens that may touch: one of them is no constant. -/
def Apart (a b : Token) : Prop :=
  a.isConstant = false ∨ b.isConstant = false

/-- The elements that the text of a token is cut into: the sign of a number is one by itself. -/
def pieces : Token → List (List Char)
  | constant n =>
      if n.toInt < 0 then [['-'], Decimal.ofNat n.toInt.natAbs]
      else [Decimal.ofNat n.toInt.natAbs]
  | token => [token.chars]

/-- A list of tokens that a text can express. -/
structure Legible (tokens : List Token) : Prop where
  unsigned : ∀ token ∈ tokens, token.Unsigned
  apart : tokens.IsChain Apart

end Definitions

/-- A token that is no constant can stand between any others. -/
theorem isChain_apart_between
    {token : Token} {u v : List Token}
    (h : token.isConstant = false)
    (hu : u.IsChain Apart)
    (hv : v.IsChain Apart) :
    (u ++ token :: v).IsChain Apart := by
  rw [List.isChain_append]
  refine ⟨hu, ?_, ?_⟩
  · exact List.isChain_cons.2 ⟨fun _ _ => .inl h, hv⟩
  · intro last _ next hnext
    cases hnext
    exact .inr h

section Characters

theorem isMark_symbol (op : Operator) :
    Text.isMark op.symbol = true := by
  cases op <;> decide

theorem chars_of_not_constant
    {token : Token}
    (h : token.isConstant = false) :
    ∃ c, token.chars = [c] ∧ Text.isMark c = true := by
  cases token with
  | constant n =>
      cases h
  | letter v =>
      exact ⟨v.char, rfl, Text.isMark_char v⟩
  | operator op =>
      exact ⟨op.symbol, rfl, isMark_symbol op⟩
  | opening =>
      exact ⟨'(', rfl, by decide⟩
  | closing =>
      exact ⟨')', rfl, by decide⟩

theorem isDigit_or_isMark_of_mem_chars
    {token : Token} {c : Char}
    (h : c ∈ token.chars) :
    c.isDigit = true ∨ Text.isMark c = true := by
  cases htoken : token.isConstant with
  | false =>
      obtain ⟨d, hchars, hmark⟩ := chars_of_not_constant htoken
      rw [hchars, List.mem_singleton] at h
      subst h
      exact .inr hmark
  | true =>
      cases token with
      | constant n =>
          rcases Decimal.isDigit_or_minus_of_mem_ofInt32 h with hdigit | rfl
          · exact .inl hdigit
          · exact .inr (by decide)
      | letter _ | operator _ | opening | closing =>
          cases htoken

theorem chars_ne_nil (token : Token) : token.chars ≠ [] := by
  cases token with
  | constant n =>
      simp only [chars, Decimal.ofInt32]
      split
      · simp
      · exact Decimal.ofNat_ne_nil _
  | letter _ | operator _ | opening | closing =>
      simp [chars]

/-- Only an operator has spaces around its characters. -/
theorem spaced_cases (token : Token) :
    token.spaced = token.chars ∨ token.spaced = ' ' :: token.chars ++ [' '] := by
  cases token with
  | operator op =>
      exact .inr rfl
  | constant _ | letter _ | opening | closing =>
      exact .inl rfl

theorem spaced_ne_nil (token : Token) : token.spaced ≠ [] := by
  rcases token.spaced_cases with h | h
  · rw [h]
    exact token.chars_ne_nil
  · rw [h]
    simp

theorem strip_chars (token : Token) :
    Text.strip token.chars = token.chars := by
  apply List.filter_eq_self.2
  intro c hc
  rcases isDigit_or_isMark_of_mem_chars hc with h | h
  · simp [Text.isBlank_of_isDigit h]
  · simp [Text.isBlank_of_isMark h]

theorem strip_spaced (token : Token) :
    Text.strip token.spaced = token.chars := by
  rcases token.spaced_cases with h | h
  · rw [h, strip_chars]
  · have hspaces : Text.strip (' ' :: token.chars ++ [' ']) = Text.strip token.chars := by
      have hblank : Text.isBlank ' ' = true := by decide
      simp [Text.strip, hblank]
    rw [h, hspaces, strip_chars]

theorem strip_flatMap_spaced (tokens : List Token) :
    Text.strip (tokens.flatMap spaced) = tokens.flatMap chars := by
  induction tokens with
  | nil =>
      rfl
  | cons token rest ih =>
      rw [List.flatMap_cons, List.flatMap_cons, Text.strip_append, strip_spaced, ih]

end Characters

section Writing

theorem check_spell
    {tokens : List Token}
    (hne : tokens ≠ []) :
    Text.check (spell tokens) = .ok () := by
  have hnonempty : (tokens.flatMap spaced).isEmpty = false := by
    cases tokens with
    | nil =>
        exact absurd rfl hne
    | cons token rest =>
        rcases token.spaced_cases with h | h
        · simp [h, chars_ne_nil token]
        · simp [h]
  have halphabet : (tokens.flatMap spaced).all Text.inAlphabet = true := by
    rw [List.all_eq_true]
    intro c hc
    obtain ⟨token, _, hspaced⟩ := List.mem_flatMap.1 hc
    have hchars : c = ' ' ∨ c ∈ token.chars := by
      rcases token.spaced_cases with h | h <;> rw [h] at hspaced
      · exact .inr hspaced
      · simp only [List.cons_append, List.mem_cons, List.mem_append, List.not_mem_nil,
          or_false] at hspaced
        tauto
    rcases hchars with rfl | hc
    · decide
    · rcases isDigit_or_isMark_of_mem_chars hc with h | h
      · simp [Text.inAlphabet, h]
      · simp [Text.inAlphabet, h]
  simp [Text.check, hnonempty, halphabet]

/-- The token after a constant is no constant, so it begins with a mark. -/
theorem not_isDigit_after_constant
    {n : Int32} {rest : List Token}
    (h : (constant n :: rest).IsChain Apart) :
    (rest.flatMap chars).head?.any Char.isDigit = false := by
  cases rest with
  | nil =>
      rfl
  | cons next rest =>
      have hnext : next.isConstant = false := by
        rcases (List.isChain_cons_cons.1 h).1 with hfirst | hnext
        · cases hfirst
        · exact hnext
      obtain ⟨c, hchars, hmark⟩ := chars_of_not_constant hnext
      simp [hchars, Text.isDigit_of_isMark hmark]

theorem cut_chars_append
    {token : Token} {rest : List Char}
    (hrest : token.isConstant = true → rest.head?.any Char.isDigit = false) :
    Element.cut (token.chars ++ rest) = token.pieces ++ Element.cut rest := by
  cases token with
  | constant n =>
      have hdigits :
          Element.cut (Decimal.ofNat n.toInt.natAbs ++ rest) =
            Decimal.ofNat n.toInt.natAbs :: Element.cut rest :=
        Element.cut_digits_append (Decimal.ofNat_ne_nil _)
          (fun c hc => Decimal.isDigit_of_mem_ofNat hc) (hrest rfl)
      simp only [chars, pieces, Decimal.ofInt32]
      split
      · rw [List.cons_append, Element.cut_mark_cons (by decide), hdigits]
        rfl
      · rw [hdigits]
        rfl
  | letter v =>
      exact Element.cut_mark_cons (Text.isMark_char v) rest
  | operator op =>
      exact Element.cut_mark_cons (isMark_symbol op) rest
  | opening | closing =>
      exact Element.cut_mark_cons (by decide) rest

/-- Where no two constants touch, the characters of a list are cut where its tokens meet. -/
theorem cut_flatMap_chars
    {tokens : List Token}
    (h : tokens.IsChain Apart) :
    Element.cut (tokens.flatMap chars) = tokens.flatMap pieces := by
  induction tokens with
  | nil =>
      rfl
  | cons token rest ih =>
      rw [List.flatMap_cons, List.flatMap_cons, ← ih h.tail]
      apply cut_chars_append
      intro hconstant
      cases token with
      | constant n =>
          exact not_isDigit_after_constant h
      | letter _ | operator _ | opening | closing =>
          cases hconstant

theorem pieces_of_unsigned
    {token : Token}
    (h : token.Unsigned) :
    token.pieces = [token.chars] := by
  cases token with
  | constant n =>
      have hsign : ¬ n.toInt < 0 := by
        have := Int32.le_iff_toInt_le.1 h
        simpa using this
      simp [pieces, chars, Decimal.ofInt32, hsign]
  | letter _ | operator _ | opening | closing =>
      rfl

theorem split_spell
    {tokens : List Token}
    (h : tokens.IsChain Apart) :
    Element.split (spell tokens) = (tokens.flatMap pieces).map String.ofList := by
  rw [Element.split, toList_spell, strip_flatMap_spaced, cut_flatMap_chars h]

end Writing

section Reading

theorem toToken_chars
    {token : Token}
    (h : token.Unsigned) :
    Element.toToken (String.ofList token.chars) = .ok token := by
  cases token with
  | constant n =>
      have hconstant :
          Element.toConstant (String.ofList (Decimal.ofInt32 n)) = .ok n := by
        rw [Element.toConstant, String.toList_ofList, Decimal.ofDigits?_ofInt32 h]
      rw [Decimal.ofInt32_of_nonneg h] at hconstant
      rw [chars, Decimal.ofInt32_of_nonneg h,
        Element.toToken_digits (Decimal.ofNat_ne_nil _)
          (fun c hc => Decimal.isDigit_of_mem_ofNat hc),
        hconstant]
      rfl
  | letter v =>
      have hdigit : v.char.isDigit = false := Text.isDigit_char v
      simp [chars, Element.toToken, Element.isNumeral, Element.isName, hdigit, v.isLower,
        Letter.ofName]
  | operator op =>
      cases op <;> rfl
  | opening | closing =>
      rfl

/-- If the pieces of every token are read as some tokens, so are the pieces of the list. -/
theorem mapM_toToken
    {tokens : List Token} {read : Token → List Token}
    (h : ∀ token ∈ tokens,
      (token.pieces.map String.ofList).mapM Element.toToken = .ok (read token)) :
    ((tokens.flatMap pieces).map String.ofList).mapM Element.toToken =
      .ok (tokens.flatMap read) := by
  induction tokens with
  | nil =>
      rfl
  | cons token rest ih =>
      have htoken := h token (by simp)
      have hrest := ih fun t ht => h t (List.mem_cons_of_mem token ht)
      rw [List.flatMap_cons, List.map_append, List.mapM_append, htoken, hrest]
      rfl

theorem mapM_pieces_of_unsigned
    {token : Token}
    (h : token.Unsigned) :
    (token.pieces.map String.ofList).mapM Element.toToken = .ok [token] := by
  rw [pieces_of_unsigned h, List.map_singleton, List.mapM_cons, toToken_chars h]
  rfl

theorem ofText_spell
    {tokens : List Token}
    (hne : tokens ≠ [])
    (h : Legible tokens) :
    ofText (some (spell tokens)) = .ok tokens := by
  have hread :
      ((tokens.flatMap pieces).map String.ofList).mapM Element.toToken =
        .ok (tokens.flatMap fun token => [token]) := by
    apply mapM_toToken
    intro token htoken
    exact mapM_pieces_of_unsigned (h.unsigned token htoken)
  rw [ofText_some, check_spell hne, ok_bind, split_spell h.apart, hread, List.flatMap_singleton']

theorem unsigned_of_toToken
    {element : Element} {token : Token}
    (h : element.toToken = .ok token) :
    token.Unsigned := by
  unfold Element.toToken at h
  split at h
  · obtain ⟨n, hn, rfl⟩ := map_eq_ok_iff.1 h
    unfold Element.toConstant at hn
    split at hn
    next m hm =>
      cases hn
      exact Decimal.nonneg_of_ofDigits? hm
    next =>
      cases hn
  split at h
  · obtain ⟨v, _, rfl⟩ := map_eq_ok_iff.1 h
    trivial
  split at h
  · obtain ⟨op, _, rfl⟩ := map_eq_ok_iff.1 h
    trivial
  split at h
  · cases h
    trivial
  split at h
  · cases h
    trivial
  · cases h

theorem unsigned_of_mapM
    {elements : List Element} {tokens : List Token}
    (h : elements.mapM Element.toToken = .ok tokens) :
    ∀ token ∈ tokens, token.Unsigned := by
  have hread := mapM_eq_ok_iff.1 h
  induction hread with
  | nil =>
      simp
  | cons hfirst hrest ih =>
      exact List.forall_mem_cons.2 ⟨unsigned_of_toToken hfirst, ih (mapM_eq_ok_iff.2 hrest)⟩

theorem unsigned_of_ofText
    {text : String} {tokens : List Token}
    (h : ofText (some text) = .ok tokens) :
    ∀ token ∈ tokens, token.Unsigned := by
  rw [ofText_some, bind_eq_ok_iff] at h
  obtain ⟨_, _, hmap⟩ := h
  exact unsigned_of_mapM hmap

end Reading

end Token
end Reckoner
