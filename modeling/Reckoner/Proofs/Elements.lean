import Reckoner.Token.Element

/-!
# The elements of written numbers and marks

Which characters numbers and marks are written with, and what cutting makes of them.  A run of
digits is one element as long as no further digit follows it, and a mark is an element wherever
it stands.

**Results.**
* `ofDigits?_ofInt32`: a number without a sign is read back.
* `cut_digits_append` and `cut_mark_cons`: the first element of a text is cut off.
* `toToken_digits`: a run of digits is read as a constant or not at all.
-/

namespace Reckoner

theorem Letter.char_ne
    (v : Letter)
    {c : Char}
    (h : c.isLower = false) :
    v.char ≠ c := by
  rintro rfl
  rw [v.isLower] at h
  cases h

namespace Text

/-- All blanks lie below or above the printable ASCII characters. -/
theorem isBlank_eq_false
    {c : Char}
    (hlow : 0x20 < c.toNat)
    (hhigh : c.toNat < 0x85) :
    isBlank c = false := by
  rw [Bool.eq_false_iff]
  intro h
  obtain ⟨range, hmem, hrange⟩ := within_eq_true_iff.1 h
  simp only [blankRanges, List.mem_cons, List.not_mem_nil, or_false] at hmem
  rcases hmem with rfl | rfl | rfl | rfl | rfl | rfl | rfl | rfl | rfl | rfl <;>
    simp only at hrange <;> omega

theorem toNat_of_isDigit
    {c : Char}
    (h : c.isDigit = true) :
    0x30 ≤ c.toNat ∧ c.toNat ≤ 0x39 :=
  Char.isDigit_iff_toNat.1 h

theorem isLower_iff
    {c : Char} :
    c.isLower = true ↔ 'a' ≤ c ∧ c ≤ 'z' := by
  change (decide ('a' ≤ c) && decide (c ≤ 'z')) = true ↔ _
  rw [Bool.and_eq_true, decide_eq_true_eq, decide_eq_true_eq]

/-- A mark is printable and is no digit. -/
theorem toNat_of_isMark
    {c : Char}
    (h : isMark c = true) :
    (0x20 < c.toNat ∧ c.toNat < 0x30) ∨ (0x39 < c.toNat ∧ c.toNat < 0x85) := by
  simp only [isMark, Bool.or_eq_true, beq_iff_eq, or_assoc] at h
  rcases h with hlower | rfl | rfl | rfl | rfl | rfl
  · obtain ⟨hlow, hhigh⟩ := isLower_iff.1 hlower
    have hlow' : 97 ≤ c.toNat := hlow
    have hhigh' : c.toNat ≤ 122 := hhigh
    omega
  all_goals decide

theorem isBlank_of_isDigit
    {c : Char}
    (h : c.isDigit = true) :
    isBlank c = false := by
  have hrange := toNat_of_isDigit h
  exact isBlank_eq_false (by omega) (by omega)

theorem isBlank_of_isMark
    {c : Char}
    (h : isMark c = true) :
    isBlank c = false := by
  have hrange := toNat_of_isMark h
  exact isBlank_eq_false (by omega) (by omega)

theorem isDigit_of_isMark
    {c : Char}
    (h : isMark c = true) :
    c.isDigit = false := by
  rw [Bool.eq_false_iff]
  intro hdigit
  have hrange := toNat_of_isMark h
  have hdigits := toNat_of_isDigit hdigit
  omega

theorem strip_append (u v : List Char) :
    strip (u ++ v) = strip u ++ strip v :=
  List.filter_append u v

theorem isMark_char (v : Letter) : isMark v.char = true := by
  simp [isMark, v.isLower]

theorem isDigit_char (v : Letter) : v.char.isDigit = false :=
  isDigit_of_isMark (isMark_char v)

end Text

namespace Decimal

theorem isDigit_of_mem_ofNat
    {n : Nat} {c : Char}
    (h : c ∈ ofNat n) :
    c.isDigit = true :=
  Nat.isDigit_of_mem_toDigits (by decide) (by decide) h

theorem isDigit_or_minus_of_mem_ofInt32
    {n : Int32} {c : Char}
    (h : c ∈ ofInt32 n) :
    c.isDigit = true ∨ c = '-' := by
  unfold ofInt32 at h
  split at h
  · rcases List.mem_cons.1 h with rfl | hdigit
    · exact .inr rfl
    · exact .inl (isDigit_of_mem_ofNat hdigit)
  · exact .inl (isDigit_of_mem_ofNat h)

theorem ofNat_ne_nil (n : Nat) : ofNat n ≠ [] :=
  Nat.toDigits_ne_nil

theorem ofInt32_of_nonneg
    {n : Int32}
    (h : 0 ≤ n) :
    ofInt32 n = ofNat n.toInt.natAbs := by
  have hsign : ¬ n.toInt < 0 := by
    have := Int32.le_iff_toInt_le.1 h
    simpa using this
  simp [ofInt32, hsign]

theorem ofDigits?_ofInt32
    {n : Int32}
    (h : 0 ≤ n) :
    ofDigits? (ofInt32 n) = some n := by
  have hlow : 0 ≤ n.toInt := by
    have := Int32.le_iff_toInt_le.1 h
    simpa using this
  have hhigh : n.toInt < 2147483648 := n.toInt_lt
  have hvalue : value (ofNat n.toInt.natAbs) ≤ 2147483647 := by
    rw [value_ofNat]
    omega
  rw [ofInt32_of_nonneg h, ofDigits?, if_pos hvalue, value_ofNat, Option.some.injEq]
  calc Int32.ofNat n.toInt.natAbs
      = Int32.ofInt (n.toInt.natAbs : Int) := Int32.ofInt_eq_ofNat.symm
    _ = Int32.ofInt n.toInt := by rw [Int.natAbs_of_nonneg hlow]
    _ = n := Int32.ofInt_toInt n

theorem nonneg_of_ofDigits?
    {digits : List Char} {n : Int32}
    (h : ofDigits? digits = some n) :
    0 ≤ n := by
  unfold ofDigits? at h
  split at h
  · cases h
    rw [Int32.le_iff_toInt_le, Int32.toInt_ofNat_of_lt (by omega)]
    simp
  · cases h

end Decimal

namespace Element

/-- A run of digits is one element if no further digit follows. -/
theorem cut_digits_append
    {digits rest : List Char}
    (hne : digits ≠ [])
    (hdigits : ∀ c ∈ digits, c.isDigit = true)
    (hrest : rest.head?.any Char.isDigit = false) :
    cut (digits ++ rest) = digits :: cut rest := by
  induction digits with
  | nil =>
      exact absurd rfl hne
  | cons c tail ih =>
      have hc : c.isDigit = true := hdigits c (by simp)
      cases tail with
      | nil =>
          simp [cut, hc, hrest]
      | cons d tail =>
          have hd : d.isDigit = true := hdigits d (by simp)
          have htail := ih (by simp) (fun x hx => hdigits x (List.mem_cons_of_mem c hx))
          rw [List.cons_append, cut, htail]
          simp [hc, hd]

theorem cut_mark_cons
    {c : Char}
    (h : Text.isMark c = true)
    (rest : List Char) :
    cut (c :: rest) = [c] :: cut rest := by
  simp [cut, Text.isDigit_of_isMark h, h]

/-- A run of digits is read as a constant or not at all. -/
theorem toToken_digits
    {digits : List Char}
    (hne : digits ≠ [])
    (hdigits : ∀ c ∈ digits, c.isDigit = true) :
    toToken (String.ofList digits) = .constant <$> toConstant (String.ofList digits) := by
  have hnumeral : isNumeral (String.ofList digits) = true := by
    simp only [isNumeral, String.toList_ofList, Bool.and_eq_true, Bool.not_eq_true',
      List.isEmpty_eq_false_iff, List.all_eq_true]
    exact ⟨hne, hdigits⟩
  rw [toToken, if_pos hnumeral]

end Element

end Reckoner
