import Mathlib.Computability.RegularExpressions
import Reckoner.Proofs.Parts

/-!
# Patterns of characters

What a text may be written with, and what it is cut into, can also be said by patterns.  A pattern
lists its characters by ranges of code points, apart from the classes by which characters are
recognised elsewhere; that lists and classes agree is a fact about code points.

**Results.**
* `mem_allDigits_iff` and `mem_allMarks_iff`: the lists hold the characters of the two classes.
* `mem_matches_someOf_iff`: what a repeated choice of characters matches.
-/

namespace Reckoner
namespace Text

section Definitions

/-- The characters from one to another, by their code points. -/
def span (first last : Char) : List Char :=
  (List.range' first.toNat (last.toNat + 1 - first.toNat)).map Char.ofNat

def allDigits : List Char :=
  span '0' '9'

/-- The letters, operators and brackets. -/
def allMarks : List Char :=
  span 'a' 'z' ++ ['+', '-', '*', '(', ')']

/-- Any one of the characters. -/
def anyOf (chars : List Char) : RegularExpression Char :=
  (chars.map RegularExpression.char).sum

/-- One of the characters after another, and at least one. -/
def someOf (chars : List Char) : RegularExpression Char :=
  anyOf chars * (anyOf chars).star

end Definitions

section Lists

theorem mem_span_iff
    {first last c : Char}
    (hlast : last.toNat < 0xD800) :
    c ∈ span first last ↔ first ≤ c ∧ c ≤ last := by
  show _ ↔ first.toNat ≤ c.toNat ∧ c.toNat ≤ last.toNat
  rw [span, List.mem_map]
  constructor
  · rintro ⟨n, hn, rfl⟩
    have hrange := List.mem_range'_1.1 hn
    have hvalid : n.isValidChar := .inl (by omega)
    have hcode : (Char.ofNat n).toNat = n := by
      rw [Char.ofNat, dif_pos hvalid]
      rfl
    omega
  · rintro ⟨hfirst, hc⟩
    refine ⟨c.toNat, ?_, Char.ofNat_toNat c⟩
    rw [List.mem_range'_1]
    omega

theorem mem_allDigits_iff (c : Char) :
    c ∈ allDigits ↔ c.isDigit = true :=
  (mem_span_iff (by decide)).trans Char.isDigit_iff_toNat.symm

theorem mem_allMarks_iff (c : Char) :
    c ∈ allMarks ↔ isMark c = true := by
  have hletter : c ∈ span 'a' 'z' ↔ c.isLower = true :=
    (mem_span_iff (by decide)).trans isLower_iff.symm
  rw [allMarks, List.mem_append, hletter]
  simp only [isMark, Bool.or_eq_true, beq_iff_eq, List.mem_cons, List.not_mem_nil, or_false,
    or_assoc]

end Lists

section Matches

variable {chars text : List Char}

theorem mem_matches_anyOf_iff :
    text ∈ (anyOf chars).matches' ↔ ∃ c ∈ chars, text = [c] := by
  induction chars with
  | nil =>
      simp [anyOf]
  | cons c rest ih =>
      have hcons : anyOf (c :: rest) = .char c + anyOf rest := List.sum_cons
      have hfirst : text ∈ (RegularExpression.char c).matches' ↔ text = [c] := by
        rw [RegularExpression.matches'_char]
        exact Set.mem_singleton_iff
      rw [hcons, RegularExpression.matches'_add, Language.mem_add, hfirst, ih]
      simp only [List.mem_cons, exists_eq_or_imp]

theorem mem_matches_star_anyOf_iff :
    text ∈ (anyOf chars).star.matches' ↔ ∀ c ∈ text, c ∈ chars := by
  rw [RegularExpression.matches'_star, Language.mem_kstar]
  constructor
  · rintro ⟨pieces, rfl, hpieces⟩ c hc
    obtain ⟨piece, hpiece, hc⟩ := List.mem_flatten.1 hc
    obtain ⟨d, hd, rfl⟩ := mem_matches_anyOf_iff.1 (hpieces piece hpiece)
    rwa [List.mem_singleton.1 hc]
  · intro h
    refine ⟨text.map fun c => [c], ?_, ?_⟩
    · rw [← List.flatMap_def, List.flatMap_singleton']
    · intro piece hpiece
      obtain ⟨c, hc, rfl⟩ := List.mem_map.1 hpiece
      exact mem_matches_anyOf_iff.2 ⟨c, h c hc, rfl⟩

theorem mem_matches_someOf_iff :
    text ∈ (someOf chars).matches' ↔ text ≠ [] ∧ ∀ c ∈ text, c ∈ chars := by
  rw [someOf, RegularExpression.matches'_mul, Language.mem_mul]
  constructor
  · rintro ⟨first, hfirst, rest, hrest, rfl⟩
    obtain ⟨c, hc, rfl⟩ := mem_matches_anyOf_iff.1 hfirst
    exact ⟨by simp, List.forall_mem_cons.2 ⟨hc, mem_matches_star_anyOf_iff.1 hrest⟩⟩
  · rintro ⟨hne, hall⟩
    obtain ⟨c, rest, rfl⟩ := List.exists_cons_of_ne_nil hne
    obtain ⟨hc, hrest⟩ := List.forall_mem_cons.1 hall
    exact
      ⟨[c], mem_matches_anyOf_iff.2 ⟨c, hc, rfl⟩, rest, mem_matches_star_anyOf_iff.2 hrest, rfl⟩

end Matches

end Text
end Reckoner
