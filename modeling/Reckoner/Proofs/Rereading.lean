import Reckoner.Proofs.Failures
import Reckoner.Proofs.Sparing

/-!
# Reading a text of tokens again

What becomes of a list of tokens that is written as a text and read again.  Exactly the legible
lists come back, since whatever is read from a text is legible.  Where no two constants touch, the
only change is that the minus sign of a negative constant is read as an operator.  The least
constant of all has no positive counterpart, so its digits are out of range.

For a phrase of the grammar this means that it is never misread.  Every sign that turns into an
operator is one operator too many for the number of operands, so that no other expression can come
out.  The sparing tokens of an expression are such a phrase.

**Results.**
* `legible_of_ofText`: the tokens of a text are legible.
* `ofText_spell_iff`: which lists of tokens come back.
* `ofText_spell_of_apart` and `ofText_spell_of_least`: what comes back otherwise.
* `countP_of_derives`: a phrase has one more operand than operators.
* `ofText_spell_of_shallow` and `ofText_spell_of_not`: the text of a phrase is read as its
  expression or refused.
* `ofText_toText_never_misread`: the text of any expression is read as it or refused.
-/

namespace Reckoner

open Grammar

namespace Token

section Legible

theorem legible_of_ofText
    {text : Option String} {tokens : List Token}
    (h : ofText text = .ok tokens) :
    Legible tokens := by
  cases text with
  | none =>
      cases h
  | some text =>
      obtain ⟨hadmissible, _⟩ := (ofText_accepts_iff text).1 ⟨tokens, h⟩
      obtain ⟨_, hdenoted⟩ := ofText_eq_ok hadmissible h
      exact ⟨unsigned_of_ofText h, isChain_apart_of_denoted (Text.isChain_parts text) hdenoted⟩

/-- A list of tokens is read back from its text exactly if it has no negative constant and no
two constants that touch.  What is read from a text is such a list, so that a second reading
changes nothing. -/
theorem ofText_spell_iff :
    (∀ tokens : List Token,
      tokens ≠ [] →
      (ofText (some (spell tokens)) = .ok tokens ↔ Legible tokens))
      ∧
    (∀ text tokens,
      ofText text = .ok tokens →
      Legible tokens ∧
      (tokens ≠ [] → ofText (some (spell tokens)) = .ok tokens)) := by
  constructor
  · intro tokens hne
    exact ⟨legible_of_ofText, ofText_spell hne⟩
  · intro text tokens h
    exact ⟨legible_of_ofText h, fun hne => ofText_spell hne (legible_of_ofText h)⟩

/-- `7 + 2` comes back, but neither does it with a minus sign before the `2`, nor without an
operator. -/
theorem ofText_spell_iff_signs :
    ofText (some (spell [.constant 7, .operator .add, .constant 2])) =
        .ok [.constant 7, .operator .add, .constant 2]
      ∧
    ofText (some (spell [.constant 7, .operator .add, .constant (-2)])) ≠
        .ok [.constant 7, .operator .add, .constant (-2)]
      ∧
    ofText (some (spell [.constant 7, .constant 2])) ≠ .ok [.constant 7, .constant 2] := by
  have htokens : ofText (some "7+2") = .ok [.constant 7, .operator .add, .constant 2] := by
    rfl
  refine ⟨(ofText_spell_iff.2 _ _ htokens).2 (by simp), ?_, ?_⟩
  · intro h
    have hsigned : (0 : Int32) ≤ -2 :=
      ((ofText_spell_iff.1 _ (by simp)).1 h).unsigned (.constant (-2)) (by simp)
    exact absurd hsigned (by decide)
  · intro h
    have hapart := ((ofText_spell_iff.1 _ (by simp)).1 h).apart
    rcases (List.isChain_cons_cons.1 hapart).1 with hfirst | hsecond
    · cases hfirst
    · cases hsecond

end Legible

section Signs

/-- What a token is read as after it was written. -/
def reread : Token → List Token
  | constant n => if 0 ≤ n then [.constant n] else [.operator .subtract, .constant (-n)]
  | token => [token]

theorem toInt_neg_of_ne
    {n : Int32}
    (h : n ≠ -2147483648) :
    (-n).toInt = -n.toInt := by
  have hlow := n.le_toInt
  have hhigh := n.toInt_lt
  have hne : n.toInt ≠ -2147483648 := fun hn => h (Int32.toInt_inj.1 hn)
  rw [Int32.toInt_neg, Int.bmod_eq_of_le (by omega) (by omega)]

/-- A negative number is written as a minus sign and the number without it. -/
theorem pieces_of_negative
    {n : Int32}
    (hsign : ¬ 0 ≤ n)
    (hleast : n ≠ -2147483648) :
    0 ≤ -n ∧ (constant n).pieces = [['-'], (constant (-n)).chars] := by
  have hnegative : n.toInt < 0 := by
    rw [Int32.le_iff_toInt_le, not_le] at hsign
    simpa using hsign
  have hopposite := toInt_neg_of_ne hleast
  have hpositive : 0 ≤ -n := by
    rw [Int32.le_iff_toInt_le, hopposite, Int32.toInt_zero]
    omega
  refine ⟨hpositive, ?_⟩
  rw [pieces, if_pos hnegative, chars, Decimal.ofInt32_of_nonneg hpositive, hopposite,
    Int.natAbs_neg]

theorem mapM_pieces
    {token : Token}
    (h : token ≠ .constant (-2147483648)) :
    (token.pieces.map String.ofList).mapM Element.toToken = .ok token.reread := by
  cases token with
  | constant n =>
      by_cases hsign : 0 ≤ n
      · rw [reread, if_pos hsign]
        exact mapM_pieces_of_unsigned hsign
      · have hleast : n ≠ -2147483648 := fun hn => h (hn ▸ rfl)
        obtain ⟨hpositive, hpieces⟩ := pieces_of_negative hsign hleast
        have hminus : Element.toToken (String.ofList ['-']) = .ok (.operator .subtract) := by
          rfl
        have hnumber :
            Element.toToken (String.ofList (constant (-n)).chars) = .ok (constant (-n)) :=
          toToken_chars hpositive
        rw [hpieces, reread, if_neg hsign, List.map_cons, List.map_singleton, List.mapM_cons,
          hminus, List.mapM_cons, hnumber]
        rfl
  | letter _ | operator _ | opening | closing =>
      exact mapM_pieces_of_unsigned trivial

theorem ofText_spell_of_apart
    {tokens : List Token}
    (hne : tokens ≠ [])
    (hapart : tokens.IsChain Apart)
    (hleast : .constant (-2147483648) ∉ tokens) :
    ofText (some (spell tokens)) = .ok (tokens.flatMap reread) := by
  rw [ofText_some, check_spell hne, ok_bind, split_spell hapart]
  apply mapM_toToken
  rintro token htoken
  apply mapM_pieces
  rintro rfl
  exact hleast htoken

/-- The digits of the least constant denote a number that is one too great. -/
theorem ofText_spell_of_least
    {tokens : List Token}
    (hapart : tokens.IsChain Apart)
    (hleast : .constant (-2147483648) ∈ tokens) :
    ∃ element, ofText (some (spell tokens)) = .error (.outOfRange element) := by
  have hadmissible : Text.Admissible (spell tokens) :=
    (Text.check_eq_ok_iff _).1 (check_spell (List.ne_nil_of_mem hleast))
  have hparts : Text.parts (spell tokens) = tokens.flatMap pieces := by
    rw [← Text.cut_strip_of_admissible hadmissible, toList_spell, strip_flatMap_spaced,
      cut_flatMap_chars hapart]
  have hdigits : Decimal.ofNat 2147483648 ∈ Text.parts (spell tokens) := by
    rw [hparts]
    exact List.mem_flatMap.2 ⟨_, hleast, List.mem_cons_of_mem _ (List.mem_singleton_self _)⟩
  cases hread : ofText (some (spell tokens)) with
  | ok others =>
      have hfits := (ofText_eq_ok hadmissible hread).1 _ hdigits
        ⟨Decimal.ofNat_ne_nil _, fun c hc => Decimal.isDigit_of_mem_ofNat hc⟩
      rw [Decimal.value_ofNat] at hfits
      omega
  | error failure =>
      obtain ⟨run, _, rfl⟩ := ofText_eq_error hadmissible hread
      exact ⟨_, rfl⟩

end Signs

section Counting

def isOperand : Token → Bool
  | constant _ | letter _ => true
  | operator _ | opening | closing => false

def isOperator : Token → Bool
  | operator _ => true
  | constant _ | letter _ | opening | closing => false

theorem countP_isOperand_reread (tokens : List Token) :
    (tokens.flatMap reread).countP isOperand = tokens.countP isOperand := by
  induction tokens with
  | nil =>
      rfl
  | cons token rest ih =>
      have htoken : token.reread.countP isOperand = [token].countP isOperand := by
        cases token with
        | constant n =>
            rw [reread]
            split <;> rfl
        | letter _ | operator _ | opening | closing =>
            rfl
      rw [List.flatMap_cons, List.countP_append, htoken, ih, ← List.countP_append]
      rfl

theorem le_countP_isOperator_reread (tokens : List Token) :
    tokens.countP isOperator ≤ (tokens.flatMap reread).countP isOperator := by
  induction tokens with
  | nil =>
      exact Nat.le_refl _
  | cons token rest ih =>
      have htoken : [token].countP isOperator ≤ token.reread.countP isOperator := by
        cases token with
        | constant n =>
            exact Nat.zero_le _
        | letter _ | operator _ | opening | closing =>
            exact Nat.le_refl _
      calc (token :: rest).countP isOperator
          = [token].countP isOperator + rest.countP isOperator := by
            rw [← List.countP_append, List.singleton_append]
        _ ≤ token.reread.countP isOperator + (rest.flatMap reread).countP isOperator :=
            Nat.add_le_add htoken ih
        _ = ((token :: rest).flatMap reread).countP isOperator := by
            rw [List.flatMap_cons, List.countP_append]

/-- The sign of a negative constant becomes an operator more. -/
theorem lt_countP_isOperator_reread
    {tokens : List Token} {n : Int32}
    (hmem : .constant n ∈ tokens)
    (hsign : ¬ 0 ≤ n) :
    tokens.countP isOperator < (tokens.flatMap reread).countP isOperator := by
  obtain ⟨u, v, rfl⟩ := List.append_of_mem hmem
  have hu := le_countP_isOperator_reread u
  have hv := le_countP_isOperator_reread v
  have hconstant : (constant n).reread.countP isOperator = 1 := by
    rw [reread, if_neg hsign]
    rfl
  rw [List.flatMap_append, List.flatMap_cons]
  simp only [List.countP_append, List.countP_cons, hconstant, isOperator, Bool.false_eq_true,
    if_false]
  omega

end Counting

end Token

namespace Grammar

/-- A phrase has one more operand than operators. -/
theorem countP_of_derives
    {phrase : Phrase} {w : List Token} {e : Expr}
    (h : Derives phrase w e) :
    w.countP Token.isOperand = w.countP Token.isOperator + 1 := by
  induction h with
  | ofTerm _ ih | ofFactor _ ih =>
      exact ih
  | additive _ _ _ ihL ihR | multiply _ _ ihL ihR =>
      simp only [List.countP_append, List.countP_cons, Token.isOperand, Token.isOperator, ihL, ihR]
      simp
      omega
  | constant _ | letter _ =>
      rfl
  | bracket _ ih =>
      simpa [List.countP_append, Token.isOperand, Token.isOperator] using ih

/-- With a sign read as an operator there are too many operators for a phrase. -/
theorem not_derives_reread
    {phrase : Phrase} {w : List Token} {a b : Expr} {n : Int32}
    (h : Derives phrase w a)
    (hmem : .constant n ∈ w)
    (hsign : ¬ 0 ≤ n) :
    ¬ Derives phrase (w.flatMap Token.reread) b := by
  intro hagain
  have hcount := countP_of_derives h
  have hcountAgain := countP_of_derives hagain
  have hmore := Token.lt_countP_isOperator_reread hmem hsign
  rw [Token.countP_isOperand_reread] at hcountAgain
  omega

end Grammar

namespace Expr

section Literals

/-- The literals of the expression from left to right. -/
def literals : Expr → List Int32
  | literal n => [n]
  | letter _ => []
  | operation _ left right => left.literals ++ right.literals

theorem constant_mem_inorder
    (e : Expr)
    (n : Int32) :
    .constant n ∈ e.inorder ↔ n ∈ e.literals := by
  induction e with
  | literal m =>
      simp [inorder, literals]
  | letter v =>
      simp [inorder, literals]
  | operation op left right ihL ihR =>
      simp [inorder, literals, ihL, ihR]

theorem nonneg_of_mem_literals_differences
    {n : Nat} {m : Int32}
    (h : m ∈ (differences n).literals) :
    0 ≤ m := by
  induction n with
  | zero =>
      obtain rfl := List.mem_singleton.1 h
      decide
  | succ n ih =>
      rcases List.mem_cons.1 h with rfl | h
      · decide
      · exact ih h

end Literals

section Phrases

variable {w : List Token} {e : Expr}

/-- The constants of a phrase are the literals of its expression. -/
theorem constant_mem_iff
    {phrase : Phrase}
    (h : Derives phrase w e)
    (n : Int32) :
    .constant n ∈ w ↔ n ∈ e.literals := by
  have hbare : .constant n ∈ Token.bare w ↔ .constant n ∈ w := by
    simp [Token.bare, Token.isBracket]
  rw [← constant_mem_inorder, ← bare_eq_inorder h, hbare]

theorem unsigned_iff
    {phrase : Phrase}
    (h : Derives phrase w e) :
    (∀ token ∈ w, token.Unsigned) ↔ ∀ n ∈ e.literals, 0 ≤ n := by
  simp only [← constant_mem_iff h]
  constructor
  · intro hunsigned n hn
    exact hunsigned _ hn
  · intro hunsigned token htoken
    cases token with
    | constant n =>
        exact hunsigned n htoken
    | letter _ | operator _ | opening | closing =>
        trivial

theorem ne_nil_of_derives
    {phrase : Phrase}
    (h : Derives phrase w e) :
    w ≠ [] := by
  rintro rfl
  have hcount := countP_of_derives h
  simp at hcount

/-- Without negative literals, the text of a phrase has the tokens of the phrase. -/
theorem tokens_spell_of_unsigned
    (h : Derives .expression w e)
    (hunsigned : ∀ n ∈ e.literals, 0 ≤ n) :
    Token.ofText (some (Token.spell w)) = .ok w := by
  have hlegible : Token.Legible w :=
    ⟨(unsigned_iff h).2 hunsigned, isChain_apart_of_derives h⟩
  exact Token.ofText_spell (ne_nil_of_derives h) hlegible

theorem ofText_spell_of_unsigned
    (h : Derives .expression w e)
    (hunsigned : ∀ n ∈ e.literals, 0 ≤ n) :
    ofText (some (Token.spell w)) = ofTokens w := by
  rw [ofText_eq, tokens_spell_of_unsigned h hunsigned, ok_bind]

/-- The least literal is out of range without its sign. -/
theorem ofText_spell_of_least
    (h : Derives .expression w e)
    (hleast : -2147483648 ∈ e.literals) :
    ∃ element, ofText (some (Token.spell w)) = .error (.outOfRange element) := by
  obtain ⟨element, hrefused⟩ :=
    Token.ofText_spell_of_least (isChain_apart_of_derives h) ((constant_mem_iff h _).2 hleast)
  refine ⟨element, ?_⟩
  rw [ofText_eq, hrefused, error_bind]

/-- A minus sign that is read as an operator breaks the grammar. -/
theorem ofText_spell_of_negative
    {n : Int32}
    (h : Derives .expression w e)
    (hmem : n ∈ e.literals)
    (hsign : ¬ 0 ≤ n)
    (hleast : -2147483648 ∉ e.literals) :
    ∃ fault position, ofText (some (Token.spell w)) = .error (.grammar fault position) := by
  have hwritable : .constant (-2147483648) ∉ w := by
    rwa [constant_mem_iff h]
  rw [ofText_eq,
    Token.ofText_spell_of_apart (ne_nil_of_derives h) (isChain_apart_of_derives h) hwritable,
    ok_bind]
  cases hread : ofTokens (w.flatMap Token.reread) with
  | ok other =>
      have hderives := ((ofTokens_eq_ok_iff _ other).1 hread).1
      exact absurd hderives (not_derives_reread h ((constant_mem_iff h n).2 hmem) hsign)
  | error failure =>
      obtain ⟨fault, position, rfl⟩ := ofTokens_eq_error hread
      exact ⟨fault, position, rfl⟩

theorem ofText_spell_of_shallow
    (h : Derives .expression w e)
    (hunsigned : ∀ n ∈ e.literals, 0 ≤ n)
    (hshallow : Token.Shallow w) :
    ofText (some (Token.spell w)) = .ok e := by
  rw [ofText_spell_of_unsigned h hunsigned, ofTokens_eq_ok_iff]
  exact ⟨h, hshallow⟩

/-- A phrase that has a negative literal or is nested too deeply is refused, as unusable input
exactly if the least literal occurs, and else for its grammar. -/
theorem ofText_spell_of_not
    (h : Derives .expression w e)
    (hnot : ¬ ((∀ n ∈ e.literals, 0 ≤ n) ∧ Token.Shallow w)) :
    ∃ failure,
      ofText (some (Token.spell w)) = .error failure ∧
      (failure.variant = .input ↔ -2147483648 ∈ e.literals) ∧
      (failure.variant = .grammar ↔ -2147483648 ∉ e.literals) := by
  by_cases hleast : -2147483648 ∈ e.literals
  · obtain ⟨element, hrefused⟩ := ofText_spell_of_least h hleast
    exact ⟨_, hrefused, by simp [Failure.variant, hleast], by simp [Failure.variant, hleast]⟩
  · have hgrammar : ∃ fault position,
        ofText (some (Token.spell w)) = .error (.grammar fault position) := by
      by_cases hsigned : ∀ n ∈ e.literals, 0 ≤ n
      · have hdeep : ¬ Token.Shallow w := fun hshallow => hnot ⟨hsigned, hshallow⟩
        obtain ⟨position, _, hrefused⟩ := ofTokens_of_deep h hdeep
        exact ⟨.tooDeep, position, by rw [ofText_spell_of_unsigned h hsigned, hrefused]⟩
      · simp only [not_forall] at hsigned
        obtain ⟨n, hmem, hsign⟩ := hsigned
        exact ofText_spell_of_negative h hmem hsign hleast
    obtain ⟨fault, position, hrefused⟩ := hgrammar
    exact ⟨_, hrefused, by simp [Failure.variant, hleast], by simp [Failure.variant, hleast]⟩

end Phrases

section Texts

variable {e : Expr}

theorem tokens_toText_of_unsigned (h : ∀ n ∈ e.literals, 0 ≤ n) :
    Token.ofText (some e.toText) = .ok e.toTokens :=
  tokens_spell_of_unsigned (derives_expression_toTokens e) h

/-- An expression that can be read from a text at all: no literal is negative, and its brackets
are not nested too deeply. -/
def Readable (e : Expr) : Prop :=
  (∀ n ∈ e.literals, 0 ≤ n) ∧ Token.Shallow e.toTokens

theorem ofText_toText_of_readable (h : e.Readable) :
    ofText (some e.toText) = .ok e :=
  ofText_spell_of_shallow (derives_expression_toTokens e) h.1 h.2

theorem ofText_toText_of_not_readable (h : ¬ e.Readable) :
    ∃ failure,
      ofText (some e.toText) = .error failure ∧
      (failure.variant = .input ↔ -2147483648 ∈ e.literals) ∧
      (failure.variant = .grammar ↔ -2147483648 ∉ e.literals) :=
  ofText_spell_of_not (derives_expression_toTokens e) h

/-- The text of an expression of any shape is read as that expression or refused.  It is read if
no literal is negative and no more than 256 brackets are open at once.  Otherwise it is refused,
as unusable input exactly if the least literal occurs, and else for its grammar. -/
theorem ofText_toText_never_misread (e : Expr) :
    (ofText (some e.toText) = .ok e
        ↔
      (∀ n ∈ e.literals, 0 ≤ n) ∧ Token.Shallow e.toTokens)
      ∧
    (¬ ((∀ n ∈ e.literals, 0 ≤ n) ∧ Token.Shallow e.toTokens) →
      ∃ failure,
        ofText (some e.toText) = .error failure ∧
        (failure.variant = .input ↔ -2147483648 ∈ e.literals) ∧
        (failure.variant = .grammar ↔ -2147483648 ∉ e.literals))
      ∧
    (∀ other, ofText (some e.toText) = .ok other → other = e) := by
  by_cases h : e.Readable
  · have hread := ofText_toText_of_readable h
    refine ⟨iff_of_true hread h, fun hnot => absurd h hnot, ?_⟩
    intro other hother
    rw [hread] at hother
    cases hother
    rfl
  · obtain ⟨failure, hrefused, hvariant⟩ := ofText_toText_of_not_readable h
    refine ⟨iff_of_false ?_ h, fun _ => ⟨failure, hrefused, hvariant⟩, ?_⟩
    · rw [hrefused]
      simp
    · intro other hother
      rw [hrefused] at hother
      cases hother

/-- `1 - -2` is refused for its grammar, and the least literal as unusable input. -/
theorem ofText_toText_never_misread_signs :
    (∃ failure,
      ofText (some (operation .subtract (literal 1) (literal (-2))).toText) = .error failure ∧
      failure.variant = .grammar)
      ∧
    ∃ failure,
      ofText (some (operation .subtract (literal 1) (literal (-2147483648))).toText) =
        .error failure ∧
      failure.variant = .input := by
  constructor
  · obtain ⟨failure, hrefused, _, hgrammar⟩ :=
      (ofText_toText_never_misread (operation .subtract (literal 1) (literal (-2)))).2.1
        fun h => absurd (h.1 (-2) (by decide)) (by decide)
    exact ⟨failure, hrefused, hgrammar.2 (by decide)⟩
  · obtain ⟨failure, hrefused, hinput, _⟩ :=
      (ofText_toText_never_misread (operation .subtract (literal 1) (literal (-2147483648)))).2.1
        fun h => absurd (h.1 (-2147483648) (by decide)) (by decide)
    exact ⟨failure, hrefused, hinput.2 (by decide)⟩

end Texts

end Expr

end Reckoner
