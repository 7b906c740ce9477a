import Reckoner.Proofs.Outcome
import Reckoner.Proofs.Parts

/-!
# Numbers with an optional sign

A number with an optional sign is read digit by digit, away from zero.  It is refused as soon as it
leaves the range of the integers, though not all of its digits have been seen.  Nothing is lost by
that: further digits never lead back, so that a number is accepted exactly if it is in range as a
whole.  Zeros may lead it in any number.

The range reaches further below zero than above it.  Since a negative number is built up below zero
from its first digit on, its least value is read like any other.

**Results.**
* `step_eq_ok_iff`: what one more digit makes of a number.
* `foldlM_step_eq_ok_iff`: the digits of a number that is accepted.
* `ofSigned_eq_ok_iff`: the texts that denote a number.
* `denotes_ofInt32`: a number that was written denotes itself.
-/

namespace Reckoner
namespace Decimal

section Definitions

/-- The text is an optional sign and one digit or more, and denotes the integer. -/
inductive Denotes : List Char → Int → Prop
  | bare
      {digits : List Char}
      (h : Text.IsRun digits) :
      Denotes digits (value digits)
  | plus
      {digits : List Char}
      (h : Text.IsRun digits) :
      Denotes ('+' :: digits) (value digits)
  | minus
      {digits : List Char}
      (h : Text.IsRun digits) :
      Denotes ('-' :: digits) (-(value digits))

/-- The integer is one of 32 bits. -/
def InRange (z : Int) : Prop :=
  -2147483648 ≤ z ∧ z ≤ 2147483647

/-- A natural number with a sign. -/
def Sign.signed : Sign → Nat → Int
  | plus, m => m
  | minus, m => -m

end Definitions

section Range

theorem inRange_toInt (n : Int32) : InRange n.toInt := by
  have hlow := n.le_toInt
  have hhigh := n.toInt_lt
  constructor <;> omega

theorem ofInt_eq_iff
    {z : Int} {n : Int32}
    (h : InRange z) :
    Int32.ofInt z = n ↔ z = n.toInt := by
  have hz : (Int32.ofInt z).toInt = z := by
    apply Int32.toInt_ofInt_of_le
    · exact h.1
    · have := h.2
      omega
  rw [← Int32.toInt_inj, hz]

/-- What lies between zero and a number in range is in range. -/
theorem InRange.of_le
    {sign : Sign} {k m : Nat}
    (h : InRange (sign.signed m))
    (hkm : k ≤ m) :
    InRange (sign.signed k) := by
  cases sign with
  | plus | minus =>
      simp only [InRange, Sign.signed] at h ⊢
      omega

end Range

section Digits

variable {sign : Sign} {m : Nat} {z : Int} {digits : List Char}

theorem append_signed (sign : Sign) (m d : Nat) :
    sign.append (sign.signed m) d = sign.signed (10 * m + d) := by
  cases sign with
  | plus | minus =>
      simp only [Sign.append, Sign.signed]
      omega

/-- One more character is accepted if it is a digit and the number stays in range. -/
theorem step_eq_ok_iff
    {c : Char} :
    sign.step (sign.signed m) c = .ok z
      ↔
    c.isDigit = true ∧
      z = sign.signed (10 * m + (c.toNat - '0'.toNat)) ∧
      InRange z := by
  simp only [Sign.step, append_signed]
  by_cases hdigit : c.isDigit = true
  · rw [if_pos hdigit, and_iff_right hdigit]
    generalize sign.signed (10 * m + (c.toNat - '0'.toNat)) = next
    by_cases hlow : next < -2147483648
    · rw [if_pos hlow]
      refine iff_of_false (by simp) ?_
      rintro ⟨rfl, hrange, _⟩
      omega
    · rw [if_neg hlow]
      by_cases hhigh : 2147483647 < next
      · rw [if_pos hhigh]
        refine iff_of_false (by simp) ?_
        rintro ⟨rfl, _, hrange⟩
        omega
      · rw [if_neg hhigh, Except.ok.injEq, eq_comm]
        refine (and_iff_left_of_imp ?_).symm
        rintro rfl
        exact ⟨by omega, by omega⟩
  · simp [hdigit]

theorem le_ofDigitChars (digits : List Char) (m : Nat) :
    m ≤ Nat.ofDigitChars 10 digits m := by
  induction digits generalizing m with
  | nil =>
      exact Nat.le_refl m
  | cons c rest ih =>
      rw [Nat.ofDigitChars_cons]
      exact Nat.le_trans (by omega) (ih _)

/-- The digits of a number are accepted if the number is in range as a whole. -/
theorem foldlM_step_eq_ok_iff
    (hm : InRange (sign.signed m)) :
    digits.foldlM sign.step (sign.signed m) = .ok z
      ↔
    (∀ c ∈ digits, c.isDigit = true) ∧
      z = sign.signed (Nat.ofDigitChars 10 digits m) ∧
      InRange z := by
  induction digits generalizing m with
  | nil =>
      rw [List.foldlM_nil, Nat.ofDigitChars_nil]
      constructor
      · intro h
        cases h
        exact ⟨by simp, rfl, hm⟩
      · rintro ⟨_, rfl, _⟩
        rfl
  | cons c rest ih =>
      rw [List.foldlM_cons, bind_eq_ok_iff, List.forall_mem_cons, Nat.ofDigitChars_cons]
      constructor
      · rintro ⟨next, hstep, hrest⟩
        obtain ⟨hdigit, rfl, hnext⟩ := step_eq_ok_iff.1 hstep
        obtain ⟨hdigits, hz, hrange⟩ := (ih hnext).1 hrest
        exact ⟨⟨hdigit, hdigits⟩, hz, hrange⟩
      · rintro ⟨⟨hdigit, hdigits⟩, rfl, hrange⟩
        have hnext := hrange.of_le (le_ofDigitChars rest _)
        exact ⟨_, step_eq_ok_iff.2 ⟨hdigit, rfl, hnext⟩, (ih hnext).2 ⟨hdigits, rfl, hrange⟩⟩

theorem read_eq_ok_iff
    {n : Int32} :
    sign.read digits = .ok n
      ↔
    (∀ c ∈ digits, c.isDigit = true) ∧ n.toInt = sign.signed (value digits) := by
  have hzero : sign.signed 0 = 0 := by
    cases sign <;> rfl
  have hstart : InRange (sign.signed 0) := by
    rw [hzero]
    exact ⟨by decide, by decide⟩
  rw [Sign.read, map_eq_ok_iff, ← hzero]
  simp only [foldlM_step_eq_ok_iff hstart]
  constructor
  · rintro ⟨z, ⟨hdigits, hz, hrange⟩, hn⟩
    exact ⟨hdigits, ((ofInt_eq_iff hrange).1 hn).symm.trans hz⟩
  · rintro ⟨hdigits, hn⟩
    exact ⟨n.toInt, ⟨hdigits, hn, inRange_toInt n⟩, n.ofInt_toInt⟩

end Digits

section Signs

variable {text : List Char} {z : Int} {n : Int32}

theorem split_cases (text : List Char) :
    (∃ digits, text = '+' :: digits ∧ Sign.split text = (.plus, digits))
      ∨
    (∃ digits, text = '-' :: digits ∧ Sign.split text = (.minus, digits))
      ∨
    Sign.split text = (.plus, text) := by
  unfold Sign.split
  split
  next digits =>
    exact .inl ⟨digits, rfl, rfl⟩
  next digits =>
    exact .inr (.inl ⟨digits, rfl, rfl⟩)
  next =>
    exact .inr (.inr rfl)

/-- No sign stands before digits alone. -/
theorem split_of_isRun
    (h : Text.IsRun text) :
    Sign.split text = (.plus, text) := by
  rcases split_cases text with ⟨digits, rfl, _⟩ | ⟨digits, rfl, _⟩ | hsplit
  · exact absurd (h.2 '+' (by simp)) (by decide)
  · exact absurd (h.2 '-' (by simp)) (by decide)
  · exact hsplit

/-- What is denoted are the digits behind the sign, if there is one, with that sign. -/
theorem denotes_iff :
    Denotes text z
      ↔
    Text.IsRun (Sign.split text).2 ∧
      z = (Sign.split text).1.signed (value (Sign.split text).2) := by
  constructor
  · intro h
    cases h with
    | bare h =>
        rw [split_of_isRun h]
        exact ⟨h, rfl⟩
    | plus h | minus h =>
        exact ⟨h, rfl⟩
  · rcases split_cases text with ⟨digits, rfl, hsplit⟩ | ⟨digits, rfl, hsplit⟩ | hsplit <;>
      rw [hsplit] <;> rintro ⟨hrun, rfl⟩
    · exact .plus hrun
    · exact .minus hrun
    · exact .bare hrun

/-- A text is read as the number that it denotes, if that is in range, and is refused otherwise. -/
theorem ofSigned_eq_ok_iff :
    ofSigned text = .ok n ↔ Denotes text n.toInt := by
  rw [denotes_iff, Text.IsRun, and_assoc, ← read_eq_ok_iff, ofSigned]
  by_cases hempty : text.isEmpty = true
  · obtain rfl := List.isEmpty_iff.1 hempty
    simp [Sign.split]
  · rw [if_neg hempty]
    obtain ⟨sign, digits⟩ := Sign.split text
    cases digits with
    | nil =>
        simp
    | cons c rest =>
        simp

theorem denotes_ofInt32 (n : Int32) :
    Denotes (ofInt32 n) n.toInt := by
  have hrun : ∀ k, Text.IsRun (ofNat k) := fun k =>
    ⟨ofNat_ne_nil k, fun _ hc => isDigit_of_mem_ofNat hc⟩
  unfold ofInt32
  split
  next hnegative =>
    have hdenotes := Denotes.minus (hrun n.toInt.natAbs)
    rwa [value_ofNat, show -(n.toInt.natAbs : Int) = n.toInt by omega] at hdenotes
  next hnegative =>
    have hdenotes := Denotes.bare (hrun n.toInt.natAbs)
    rwa [value_ofNat, show (n.toInt.natAbs : Int) = n.toInt by omega] at hdenotes

end Signs

end Decimal
end Reckoner
