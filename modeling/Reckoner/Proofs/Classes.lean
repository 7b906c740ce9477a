import Reckoner.Proofs.Tokens

/-!
# Classes of elements

Five classes of elements are recognised, each by a condition of its own, and reading an element asks
for them in turn.  No element belongs to two of them, so that the order in which they are asked for
makes no difference.  What a class admits is then read by a function that looks at the element
again; it always agrees.

A token is written as the element that it was read from, but a constant without the zeros in front
that make no difference.  The other way round, whatever is written is read back, except that a minus
sign with a number behind it is no element.

**Results.**
* `eq_zeros_append_ofNat`: a run of digits is zeros and the notation of its value.
* `plain_ofNat`: the notation of a number has no superfluous zero.
* `count_classes_le`: no element belongs to two classes.
* `toToken_cases`: how an element is read, or why it is refused.
* `toToken_classifies`: classes, reading and writing of elements.
-/

namespace Reckoner

namespace Decimal

open Text

section Zeros

/-- No zero in front can be left out. -/
def Plain (digits : List Char) : Prop :=
  digits = ['0'] ∨ digits.head? ≠ some '0'

theorem digitChar_of_isDigit
    {c : Char}
    (h : c.isDigit = true) :
    Nat.digitChar (c.toNat - '0'.toNat) = c := by
  obtain ⟨hlow, hhigh⟩ := toNat_of_isDigit h
  have hall : ∀ n : Nat, n < 0x3A → 0x30 ≤ n → Nat.digitChar (n - '0'.toNat) = Char.ofNat n := by
    decide
  rw [hall c.toNat (by omega) hlow, Char.ofNat_toNat]

/-- Digits behind a positive number continue its notation. -/
theorem ofNat_append
    {digits : List Char} {n : Nat}
    (hdigits : ∀ c ∈ digits, c.isDigit = true)
    (hn : 0 < n) :
    ofNat n ++ digits = ofNat (Nat.ofDigitChars 10 digits n) := by
  induction digits generalizing n with
  | nil =>
      rw [List.append_nil, Nat.ofDigitChars_nil]
  | cons c rest ih =>
      obtain ⟨hc, hrest⟩ := List.forall_mem_cons.1 hdigits
      obtain ⟨hlow, hhigh⟩ := toNat_of_isDigit hc
      have hzero : '0'.toNat = 0x30 := rfl
      have hlast : ofNat (c.toNat - '0'.toNat) = [c] := by
        rw [ofNat, Nat.toDigits_of_lt_base (by omega), digitChar_of_isDigit hc]
      calc ofNat n ++ c :: rest
          = ofNat n ++ ofNat (c.toNat - '0'.toNat) ++ rest := by
            rw [hlast, List.append_assoc, List.singleton_append]
        _ = ofNat (10 * n + (c.toNat - '0'.toNat)) ++ rest := by
            rw [ofNat, ofNat, Nat.toDigits_append_toDigits (by decide) hn (by omega), ofNat]
        _ = ofNat (Nat.ofDigitChars 10 (c :: rest) n) := by
            rw [ih hrest (by omega), Nat.ofDigitChars_cons]

/-- A run of digits is some zeros and the notation of its value. -/
theorem eq_zeros_append_ofNat
    {digits : List Char}
    (h : IsRun digits) :
    ∃ zeros, (∀ c ∈ zeros, c = '0') ∧ digits = zeros ++ ofNat (value digits) := by
  obtain ⟨hne, hdigits⟩ := h
  induction digits with
  | nil =>
      exact absurd rfl hne
  | cons c rest ih =>
      obtain ⟨hc, hrest⟩ := List.forall_mem_cons.1 hdigits
      have hvalue : value (c :: rest) = Nat.ofDigitChars 10 rest (c.toNat - '0'.toNat) := by
        rw [value, Nat.ofDigitChars_cons, Nat.mul_zero, Nat.zero_add]
      by_cases hzero : c = '0'
      · subst hzero
        cases rest with
        | nil =>
            exact ⟨[], by simp, rfl⟩
        | cons d rest =>
            obtain ⟨zeros, hzeros, heq⟩ := ih (by simp) hrest
            refine ⟨'0' :: zeros, List.forall_mem_cons.2 ⟨rfl, hzeros⟩, ?_⟩
            rw [hvalue, Nat.sub_self, List.cons_append, List.cons_inj_right]
            exact heq
      · refine ⟨[], by simp, ?_⟩
        obtain ⟨hlow, hhigh⟩ := toNat_of_isDigit hc
        have hbase : '0'.toNat = 0x30 := rfl
        have hpositive : 0 < c.toNat - '0'.toNat := by
          have hcode : c.toNat ≠ '0'.toNat := fun hcode => hzero (Char.toNat_inj.1 hcode)
          omega
        have hfirst : ofNat (c.toNat - '0'.toNat) = [c] := by
          rw [ofNat, Nat.toDigits_of_lt_base (by omega), digitChar_of_isDigit hc]
        rw [hvalue, ← ofNat_append hrest hpositive, hfirst]
        rfl

/-- The notation of a number has no superfluous zero. -/
theorem plain_ofNat (n : Nat) : Plain (ofNat n) := by
  by_contra h
  obtain ⟨hlong, hhead⟩ := not_or.1 h
  obtain ⟨rest, hfirst⟩ : ∃ rest, ofNat n = '0' :: rest := by
    obtain ⟨c, rest, hlist⟩ := List.exists_cons_of_ne_nil (ofNat_ne_nil n)
    rw [hlist, List.head?_cons, not_not] at hhead
    cases hhead
    exact ⟨rest, hlist⟩
  -- Without the zero, the digits still denote `n`, of which they are too few.
  have hvalue : value rest = n := by
    have hall := value_ofNat n
    rw [hfirst] at hall
    exact hall
  have hrun : IsRun rest := by
    constructor
    · rintro rfl
      exact hlong hfirst
    · intro c hc
      apply isDigit_of_mem_ofNat (n := n)
      rw [hfirst]
      exact List.mem_cons_of_mem _ hc
  obtain ⟨zeros, _, hrest⟩ := eq_zeros_append_ofNat hrun
  have hlength := congrArg List.length hrest
  rw [hvalue, hfirst, List.length_append, List.length_cons] at hlength
  omega

end Zeros

end Decimal

section Definitions

/-- Whether the element belongs to each of the five classes. -/
def Element.classes (element : Element) : List Bool :=
  [element.isNumeral, element.isName, element.isSign, element.isOpening, element.isClosing]

/-- The classes of the elements that are read as the token. -/
def Token.classes : Token → List Bool
  | constant _ => [true, false, false, false, false]
  | letter _ => [false, true, false, false, false]
  | operator _ => [false, false, true, false, false]
  | opening => [false, false, false, true, false]
  | closing => [false, false, false, false, true]

end Definitions

namespace Element

open Text

section Recognising

variable {element : Element}

theorem isNumeral_iff :
    element.isNumeral = true ↔ IsRun element.toList := by
  simp [isNumeral, IsRun]

theorem isName_iff :
    element.isName = true ↔ ∃ v : Letter, element.toList = [v.char] := by
  unfold isName
  split
  next c hlist =>
    rw [hlist]
    constructor
    · intro hlower
      exact ⟨⟨c, hlower⟩, rfl⟩
    · rintro ⟨v, hv⟩
      cases hv
      exact v.isLower
  next hother =>
    refine iff_of_false (by simp) ?_
    rintro ⟨v, hv⟩
    exact hother _ hv

theorem isSign_iff :
    element.isSign = true ↔ ∃ op : Operator, element.toList = [op.symbol] := by
  simp only [isSign, Bool.or_eq_true, beq_iff_eq, or_assoc, ← String.toList_inj]
  constructor
  · rintro (h | h | h)
    · exact ⟨.add, h⟩
    · exact ⟨.subtract, h⟩
    · exact ⟨.multiply, h⟩
  · rintro ⟨op, h⟩
    cases op with
    | add =>
        exact .inl h
    | subtract =>
        exact .inr (.inl h)
    | multiply =>
        exact .inr (.inr h)

theorem isOpening_iff :
    element.isOpening = true ↔ element.toList = ['('] := by
  rw [isOpening, beq_iff_eq, ← String.toList_inj]
  rfl

theorem isClosing_iff :
    element.isClosing = true ↔ element.toList = [')'] := by
  rw [isClosing, beq_iff_eq, ← String.toList_inj]
  rfl

/-- An element is a run of digits, a mark, which is a token that is no constant, or neither. -/
theorem part_cases (element : Element) :
    IsRun element.toList
      ∨
    (∃ token : Token, token.isConstant = false ∧ element = String.ofList token.chars)
      ∨
    ¬ IsPart element.toList := by
  by_cases hpart : IsPart element.toList
  · rcases hpart with hrun | ⟨c, hmark, hlist⟩
    · exact .inl hrun
    · obtain ⟨token, hchars, _, hdenoted⟩ := Token.exists_chars_of_isMark hmark
      refine .inr (.inl ⟨token, ?_, ?_⟩)
      · cases hdenoted with
        | constant hrun _ =>
            exact absurd hrun (not_isRun_of_isMark hmark)
        | letter _ | operator _ | opening | closing =>
            rfl
      · rw [hchars, ← hlist, String.ofList_toList]
  · exact .inr (.inr hpart)

/-- Apart from the runs of digits, all classes are classes of marks. -/
theorem classes_of_no_mark (h : ∀ c, isMark c = true → element.toList ≠ [c]) :
    element.classes = [element.isNumeral, false, false, false, false] := by
  have hname : element.isName = false := by
    rw [Bool.eq_false_iff, ne_eq, isName_iff]
    rintro ⟨v, hv⟩
    exact h v.char (isMark_char v) hv
  have hsign : element.isSign = false := by
    rw [Bool.eq_false_iff, ne_eq, isSign_iff]
    rintro ⟨op, hop⟩
    exact h op.symbol (Token.isMark_symbol op) hop
  have hopening : element.isOpening = false := by
    rw [Bool.eq_false_iff, ne_eq, isOpening_iff]
    exact h '(' (by decide)
  have hclosing : element.isClosing = false := by
    rw [Bool.eq_false_iff, ne_eq, isClosing_iff]
    exact h ')' (by decide)
  rw [classes, hname, hsign, hopening, hclosing]

theorem classes_of_isRun
    (n : Int32)
    (h : IsRun element.toList) :
    element.classes = (Token.constant n).classes := by
  have hmark : ∀ c, isMark c = true → element.toList ≠ [c] := by
    intro c hmark hlist
    rw [hlist] at h
    exact not_isRun_of_isMark hmark h
  rw [classes_of_no_mark hmark, isNumeral_iff.2 h, Token.classes]

theorem classes_of_not_isPart (h : ¬ IsPart element.toList) :
    element.classes = [false, false, false, false, false] := by
  have hmark : ∀ c, isMark c = true → element.toList ≠ [c] :=
    fun c hmark hlist => h (.inr ⟨c, hmark, hlist⟩)
  have hnumeral : element.isNumeral = false := by
    rw [Bool.eq_false_iff, ne_eq, isNumeral_iff]
    exact fun hrun => h (.inl hrun)
  rw [classes_of_no_mark hmark, hnumeral]

theorem classes_of_letter
    {v : Letter}
    (h : element.toList = [v.char]) :
    element.classes = (Token.letter v).classes := by
  have hother : ∀ c, c.isLower = false → element.toList ≠ [c] := by
    intro c hc hlist
    exact v.char_ne hc (List.singleton_inj.1 (h.symm.trans hlist))
  have hnumeral : element.isNumeral = false := by
    rw [Bool.eq_false_iff, ne_eq, isNumeral_iff, h]
    exact not_isRun_of_isMark (isMark_char v)
  have hsign : element.isSign = false := by
    rw [Bool.eq_false_iff, ne_eq, isSign_iff]
    rintro ⟨op, hop⟩
    refine hother op.symbol ?_ hop
    cases op <;> decide
  have hopening : element.isOpening = false := by
    rw [Bool.eq_false_iff, ne_eq, isOpening_iff]
    exact hother '(' (by decide)
  have hclosing : element.isClosing = false := by
    rw [Bool.eq_false_iff, ne_eq, isClosing_iff]
    exact hother ')' (by decide)
  rw [classes, hnumeral, isName_iff.2 ⟨v, h⟩, hsign, hopening, hclosing, Token.classes]

theorem classes_chars
    {token : Token}
    (h : token.isConstant = false) :
    classes (String.ofList token.chars) = token.classes := by
  cases token with
  | constant n =>
      cases h
  | letter v =>
      exact classes_of_letter String.toList_ofList
  | operator op =>
      cases op <;> decide
  | opening | closing =>
      decide

/-- No element belongs to two classes. -/
theorem count_classes_le (element : Element) :
    element.classes.count true ≤ 1 := by
  rcases part_cases element with hrun | ⟨token, hconstant, rfl⟩ | hother
  · rw [classes_of_isRun 0 hrun]
    decide
  · rw [classes_chars hconstant]
    cases token <;> exact Nat.le_refl 1
  · rw [classes_of_not_isPart hother]
    decide

end Recognising

section Reading

variable {element : Element} {token : Token}

theorem ofName_isOk_iff :
    (∃ v, Letter.ofName element = .ok v) ↔ element.isName = true := by
  rw [isName_iff]
  simp only [Letter.ofName_eq_ok_iff]

theorem toOperator_symbol (op : Operator) :
    toOperator (String.ofList [op.symbol]) = .ok op := by
  cases op <;> rfl

theorem toOperator_isOk_iff :
    (∃ op, element.toOperator = .ok op) ↔ element.isSign = true := by
  constructor
  · rintro ⟨op, h⟩
    unfold toOperator at h
    split at h
    · rfl
    · rfl
    · rfl
    · cases h
  · intro h
    obtain ⟨op, hop⟩ := isSign_iff.1 h
    refine ⟨op, ?_⟩
    rw [← element.ofList_toList, hop]
    exact toOperator_symbol op

theorem toToken_of_not_isPart (h : ¬ IsPart element.toList) :
    element.toToken = .error (.unknownElement element) := by
  have hclasses := classes_of_not_isPart h
  simp only [classes, List.cons.injEq, and_true] at hclasses
  obtain ⟨hnumeral, hname, hsign, hopening, hclosing⟩ := hclasses
  simp [toToken, hnumeral, hname, hsign, hopening, hclosing]

theorem unsigned_of_not_constant (h : token.isConstant = false) : token.Unsigned := by
  cases token with
  | constant n =>
      cases h
  | letter _ | operator _ | opening | closing =>
      trivial

/-- A run of digits is read as the number that it denotes, if that is in range. -/
theorem toToken_of_isRun (h : IsRun element.toList) :
    (Decimal.value element.toList ≤ 2147483647 ∧
      ∃ n : Int32,
        element.toToken = .ok (.constant n) ∧
        Decimal.ofInt32 n = Decimal.ofNat (Decimal.value element.toList))
      ∨
    (2147483647 < Decimal.value element.toList ∧
      element.toToken = .error (.outOfRange element)) := by
  have hread := toToken_digits h.1 h.2
  rw [String.ofList_toList] at hread
  rcases Nat.lt_or_ge 2147483647 (Decimal.value element.toList) with hgreat | hsmall
  · have hconstant := Token.toConstant_of_lt hgreat
    rw [String.ofList_toList] at hconstant
    rw [hread, hconstant]
    exact .inr ⟨hgreat, rfl⟩
  · obtain ⟨n, hconstant, hvalue⟩ := Token.toConstant_of_le hsmall
    rw [String.ofList_toList] at hconstant
    rw [hread, hconstant]
    refine .inl ⟨hsmall, n, rfl, ?_⟩
    rw [Decimal.ofInt32, if_neg (by omega), hvalue, Int.natAbs_natCast]

/-- A minus sign with digits behind it is no element. -/
theorem not_isPart_chars_of_signed (h : ¬ token.Unsigned) :
    ¬ IsPart token.chars := by
  cases token with
  | letter _ | operator _ | opening | closing =>
      exact absurd trivial h
  | constant n =>
      have hnegative : n.toInt < 0 := by
        rw [Token.Unsigned, Int32.le_iff_toInt_le] at h
        simpa using h
      rw [Token.chars, Decimal.ofInt32, if_pos hnegative]
      rintro (hrun | ⟨c, _, hc⟩)
      · have hdigit : '-'.isDigit = true := hrun.2 '-' (by simp)
        revert hdigit
        decide
      · exact Decimal.ofNat_ne_nil _ (List.cons.inj hc).2

end Reading

section Together

variable {element : Element} {token : Token}

theorem isNumeral_of_classes (h : element.classes = token.classes) :
    element.isNumeral = token.isConstant := by
  have hhead : element.classes.head? = token.classes.head? := by
    rw [h]
  cases token <;> exact Option.some.inj hhead

theorem true_mem_classes (token : Token) : true ∈ token.classes := by
  cases token <;> simp [Token.classes]

/-- An element is read as a token of its own class, or denotes too great a number, or belongs to no
class. -/
theorem toToken_cases (element : Element) :
    (∃ token,
      element.toToken = .ok token ∧
      element.classes = token.classes ∧
      (token.isConstant = false → element = String.ofList token.chars) ∧
      (token.isConstant = true →
        Decimal.value element.toList ≤ 2147483647 ∧
        token.chars = Decimal.ofNat (Decimal.value element.toList)))
      ∨
    (element.isNumeral = true ∧
      2147483647 < Decimal.value element.toList ∧
      element.toToken = .error (.outOfRange element))
      ∨
    (element.classes = [false, false, false, false, false] ∧
      element.toToken = .error (.unknownElement element)) := by
  rcases part_cases element with hrun | ⟨token, hconstant, helement⟩ | hother
  · rcases toToken_of_isRun hrun with ⟨hsmall, n, hread, hdigits⟩ | ⟨hgreat, hrefused⟩
    · exact
        .inl ⟨.constant n, hread, classes_of_isRun n hrun, nofun, fun _ => ⟨hsmall, hdigits⟩⟩
    · exact .inr (.inl ⟨isNumeral_iff.2 hrun, hgreat, hrefused⟩)
  · refine .inl ⟨token, ?_, ?_, fun _ => helement, fun hother => ?_⟩
    · rw [helement]
      exact Token.toToken_chars (unsigned_of_not_constant hconstant)
    · rw [helement]
      exact classes_chars hconstant
    · rw [hconstant] at hother
      cases hother
  · exact .inr (.inr ⟨classes_of_not_isPart hother, toToken_of_not_isPart hother⟩)

/-- An element is read if it belongs to a class and, as a number, is in range. -/
theorem toToken_isOk_iff :
    (∃ token, element.toToken = .ok token)
      ↔
    true ∈ element.classes ∧
      (element.isNumeral = true → Decimal.value element.toList ≤ 2147483647) := by
  rcases toToken_cases element with
    ⟨token, hread, hclasses, _, hconstant⟩ | ⟨hnumeral, hgreat, hrefused⟩ | ⟨hclasses, hrefused⟩
  · refine iff_of_true ⟨token, hread⟩ ⟨hclasses ▸ true_mem_classes token, fun hnumeral => ?_⟩
    rw [isNumeral_of_classes hclasses] at hnumeral
    exact (hconstant hnumeral).1
  · refine iff_of_false ?_ ?_
    · rintro ⟨token, hread⟩
      rw [hrefused] at hread
      cases hread
    · rintro ⟨_, hsmall⟩
      exact Nat.not_le_of_gt hgreat (hsmall hnumeral)
  · refine iff_of_false ?_ ?_
    · rintro ⟨token, hread⟩
      rw [hrefused] at hread
      cases hread
    · rw [hclasses]
      simp

/-- The token of an element is of the same class and is written as the element; of a constant, zeros
in front may be missing. -/
theorem chars_of_toToken (h : element.toToken = .ok token) :
    element.classes = token.classes ∧
      (token.isConstant = false → String.ofList token.chars = element) ∧
      (token.isConstant = true →
        Decimal.Plain token.chars ∧
        ∃ zeros, (∀ c ∈ zeros, c = '0') ∧ element.toList = zeros ++ token.chars) := by
  rcases toToken_cases element with
    ⟨other, hread, hclasses, hmark, hconstant⟩ | ⟨_, _, hrefused⟩ | ⟨_, hrefused⟩
  · rw [h] at hread
    cases hread
    refine ⟨hclasses, fun htoken => (hmark htoken).symm, fun htoken => ?_⟩
    have hrun : IsRun element.toList := by
      rw [← isNumeral_iff, isNumeral_of_classes hclasses, htoken]
    rw [(hconstant htoken).2]
    exact ⟨Decimal.plain_ofNat _, Decimal.eq_zeros_append_ofNat hrun⟩
  · rw [h] at hrefused
    cases hrefused
  · rw [h] at hrefused
    cases hrefused

theorem eq_of_toToken_eq_error
    {failure : Failure}
    (h : element.toToken = .error failure) :
    failure = .outOfRange element ∨ failure = .unknownElement element := by
  rcases toToken_cases element with ⟨token, hread, _⟩ | ⟨_, _, hrefused⟩ | ⟨_, hrefused⟩
  · rw [h] at hread
    cases hread
  · rw [h] at hrefused
    exact .inl (Except.error.inj hrefused)
  · rw [h] at hrefused
    exact .inr (Except.error.inj hrefused)

end Together

/-- No element belongs to two classes; its name and its operator are read exactly if it belongs to
their classes; and a token is read exactly if it belongs to any class and, as a number, is in range.
The failure is never internal.  What was read is of the same class and is written as the element, but
without the superfluous zeros of a constant.  The other way round, a token that was written is read
back, unless it is a negative constant; that is always refused. -/
theorem toToken_classifies :
    (∀ element : Element,
      element.classes.count true ≤ 1 ∧
      ((∃ v, Letter.ofName element = .ok v) ↔ element.isName = true) ∧
      ((∃ op, element.toOperator = .ok op) ↔ element.isSign = true) ∧
      ((∃ token, element.toToken = .ok token) ↔
        true ∈ element.classes ∧
        (element.isNumeral = true → Decimal.value element.toList ≤ 2147483647)) ∧
      (∀ token,
        element.toToken = .ok token →
        element.classes = token.classes ∧
        (token.isConstant = false → String.ofList token.chars = element) ∧
        (token.isConstant = true →
          Decimal.Plain token.chars ∧
          ∃ zeros, (∀ c ∈ zeros, c = '0') ∧ element.toList = zeros ++ token.chars)) ∧
      (∀ failure,
        element.toToken = .error failure →
        failure.kind ≠ .internal ∧
        (failure = .outOfRange element ∨ failure = .unknownElement element)))
      ∧
    (∀ token : Token,
      token.Unsigned →
      toToken (String.ofList token.chars) = .ok token)
      ∧
    (∀ token : Token,
      ¬ token.Unsigned →
      ∃ failure, toToken (String.ofList token.chars) = .error failure) := by
  refine ⟨?_, fun token => Token.toToken_chars, ?_⟩
  · intro element
    refine ⟨count_classes_le element, ofName_isOk_iff, toOperator_isOk_iff, toToken_isOk_iff,
      fun token => chars_of_toToken, ?_⟩
    intro failure h
    have hfailure := eq_of_toToken_eq_error h
    refine ⟨?_, hfailure⟩
    rcases hfailure with rfl | rfl <;> simp [Failure.kind]
  · intro token h
    refine ⟨_, toToken_of_not_isPart ?_⟩
    rw [String.toList_ofList]
    exact not_isPart_chars_of_signed h

/-- Zeros in front are read but not written, and the least number of all is written but not read. -/
theorem toToken_classifies_zeros :
    toToken "007" = .ok (.constant 7) ∧
    (∃ zeros, (∀ c ∈ zeros, c = '0') ∧ "007".toList = zeros ++ ['7']) ∧
    toToken "02147483648" = .error (.outOfRange "02147483648") ∧
    Failure.kind (.outOfRange "02147483648") ≠ .internal ∧
    Token.Unsigned (.constant 2147483647) ∧
    toToken "2147483647" = .ok (.constant 2147483647) ∧
    ¬ Token.Unsigned (.constant (-2147483648)) ∧
    ∃ failure, toToken "-2147483648" = .error failure := by
  have hread : toToken "007" = .ok (.constant 7) := by
    rfl
  have hrefused : toToken "02147483648" = .error (.outOfRange "02147483648") := by
    rfl
  have hgreatest : (0 : Int32) ≤ 2147483647 := by
    decide
  have hleast : ¬ (0 : Int32) ≤ -2147483648 := by
    decide
  obtain ⟨helements, hunsigned, hsigned⟩ := toToken_classifies
  obtain ⟨_, _, _, _, hwritten, _⟩ := helements "007"
  obtain ⟨_, _, _, _, _, hfailure⟩ := helements "02147483648"
  obtain ⟨_, _, hzeros⟩ := hwritten _ hread
  exact
    ⟨hread, (hzeros rfl).2, hrefused, (hfailure _ hrefused).1, hgreatest,
      hunsigned (.constant 2147483647) hgreatest, hleast,
      hsigned (.constant (-2147483648)) hleast⟩

end Element

end Reckoner
