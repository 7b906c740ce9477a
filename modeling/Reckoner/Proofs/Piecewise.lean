import Reckoner.Proofs.Tokens

/-!
# Reading texts piece by piece

A text is cut in the same way whether as a whole or in two pieces, unless the border lies between
two digits.  So the tokens of a text that is put together from pieces are the tokens of the
pieces.

**Results.**
* `cut_append`: cutting in two pieces.
* `reads_append_iff`: reading in two pieces.
* `Reads.induction`: induction on a text along with its tokens.
* `ofText_eq_ok_iff`: the tokens of a text, by what its characters without blanks are read as.
-/

namespace Reckoner

namespace Text

theorem Parted.of_append
    {u v w : List Char}
    (h : Parted (u ++ v) w) :
    Parted v w := by
  intro c hc
  apply h c
  rw [Option.mem_def] at hc ⊢
  rw [List.getLast?_append, hc, Option.some_or]

/-- What follows a run of digits, directly or not, does not begin with a digit. -/
theorem Parted.not_isDigit
    {digits rest v : List Char}
    (h : Parted (digits ++ rest) v)
    (hrun : IsRun digits)
    (hrest : rest.head?.any Char.isDigit = false) :
    (rest ++ v).head?.any Char.isDigit = false := by
  cases rest with
  | cons c rest =>
      exact hrest
  | nil =>
      rw [List.append_nil] at h
      cases v with
      | nil =>
          rfl
      | cons d v =>
          have hlast := List.getLast?_eq_some_getLast hrun.1
          have hpart := h _ hlast d rfl
          rw [joined, hrun.2 _ (List.getLast_mem hrun.1), Bool.true_and] at hpart
          simpa using hpart

end Text

namespace Element

open Text

theorem cut_singleton_append
    {c : Char}
    (h : c.isDigit = false)
    (rest : List Char) :
    cut (c :: rest) = cut [c] ++ cut rest := by
  cases hmark : isMark c with
  | false =>
      rw [cut_other_cons h hmark, cut_other_cons h hmark]
      rfl
  | true =>
      rw [cut_mark_cons hmark, cut_mark_cons hmark]
      rfl

theorem cut_append
    {u v : List Char}
    (h : Parted u v) :
    cut (u ++ v) = cut u ++ cut v := by
  induction u using run_induction with
  | nil =>
      rfl
  | run digits rest hrun hrest ih =>
      rw [List.append_assoc, cut_digits_append hrun.1 hrun.2 (h.not_isDigit hrun hrest),
        cut_digits_append hrun.1 hrun.2 hrest, ih h.of_append]
      rfl
  | other c rest hc ih =>
      have hparted : Parted rest v := Parted.of_append (u := [c]) h
      rw [List.cons_append, cut_singleton_append hc, cut_singleton_append hc rest, ih hparted,
        List.append_assoc]

section Reading

/-- The characters are cut into elements of which each is read as a token. -/
def Reads (chars : List Char) (tokens : List Token) : Prop :=
  ((cut chars).mapM fun part => toToken (String.ofList part)) = .ok tokens

theorem reads_append_iff
    {u v : List Char} {tokens : List Token}
    (h : Parted u v) :
    Reads (u ++ v) tokens ↔ ∃ a b, Reads u a ∧ Reads v b ∧ a ++ b = tokens := by
  rw [Reads, cut_append h, List.mapM_append, bind_eq_ok_iff]
  constructor
  · rintro ⟨a, ha, hrest⟩
    obtain ⟨b, hb, hab⟩ := bind_eq_ok_iff.1 hrest
    exact ⟨a, b, ha, hb, Except.ok.inj hab⟩
  · rintro ⟨a, b, ha, hb, rfl⟩
    exact ⟨a, ha, bind_eq_ok_iff.2 ⟨b, hb, rfl⟩⟩

theorem Reads.unique
    {chars : List Char} {a b : List Token}
    (ha : Reads chars a)
    (hb : Reads chars b) :
    a = b :=
  Except.ok.inj (ha.symm.trans hb)

theorem reads_chars
    {token : Token}
    (h : token.Unsigned) :
    Reads token.chars [token] := by
  have hcut : cut (token.chars ++ []) = token.pieces ++ [] := Token.cut_chars_append fun _ => rfl
  rw [List.append_nil, List.append_nil, Token.pieces_of_unsigned h] at hcut
  rw [Reads, hcut, List.mapM_cons, Token.toToken_chars h]
  rfl

/-- A run of digits is read as a constant. -/
theorem reads_run
    {digits : List Char} {tokens : List Token}
    (hrun : IsRun digits)
    (h : Reads digits tokens) :
    ∃ n, tokens = [.constant n] := by
  have hcut : cut (digits ++ []) = [digits] := cut_digits_append hrun.1 hrun.2 rfl
  rw [List.append_nil] at hcut
  rw [Reads, hcut, List.mapM_cons, toToken_digits hrun.1 hrun.2, bind_eq_ok_iff] at h
  obtain ⟨token, htoken, hrest⟩ := h
  obtain ⟨n, _, rfl⟩ := map_eq_ok_iff.1 htoken
  cases hrest
  exact ⟨n, rfl⟩

/-- A mark is read as the token that it denotes. -/
theorem reads_mark
    {c : Char} {tokens : List Token}
    (hmark : isMark c = true)
    (h : Reads [c] tokens) :
    ∃ token, Token.Denoted [c] token ∧ tokens = [token] := by
  obtain ⟨token, hchars, hunsigned, hdenoted⟩ := Token.exists_chars_of_isMark hmark
  have hread := reads_chars hunsigned
  rw [hchars] at hread
  exact ⟨token, hdenoted, h.unique hread⟩

/-- Other characters are passed over. -/
theorem reads_other
    {c : Char} {tokens : List Token}
    (hdigit : c.isDigit = false)
    (hmark : isMark c = false)
    (h : Reads [c] tokens) :
    tokens = [] := by
  rw [Reads, cut_other_cons hdigit hmark] at h
  cases h
  rfl

/-- Induction on what is read: a run of digits and a constant at a time, a mark and its token, or a
character that is passed over. -/
theorem Reads.induction
    {motive : ∀ chars tokens, Reads chars tokens → Prop}
    (nil : ∀ h, motive [] [] h)
    (run : ∀ digits rest n w h (hrest : Reads rest w),
      IsRun digits →
      rest.head?.any Char.isDigit = false →
      Reads digits [.constant n] →
      motive rest w hrest →
      motive (digits ++ rest) (.constant n :: w) h)
    (mark : ∀ c rest token w h (hrest : Reads rest w),
      isMark c = true →
      Token.Denoted [c] token →
      Reads [c] [token] →
      motive rest w hrest →
      motive (c :: rest) (token :: w) h)
    (other : ∀ c rest w h (hrest : Reads rest w),
      c.isDigit = false →
      isMark c = false →
      Reads [c] [] →
      motive rest w hrest →
      motive (c :: rest) w h)
    {chars : List Char} {tokens : List Token}
    (h : Reads chars tokens) :
    motive chars tokens h := by
  induction chars using run_induction generalizing tokens with
  | nil =>
      obtain rfl : [] = tokens := Except.ok.inj h
      exact nil h
  | run digits rest hrun hend ih =>
      obtain ⟨a, w, ha, hw, rfl⟩ := (reads_append_iff (parted_of_head hend digits)).1 h
      obtain ⟨n, rfl⟩ := reads_run hrun ha
      exact run digits rest n w h hw hrun hend ha (ih hw)
  | other c rest hc ih =>
      obtain ⟨a, w, ha, hw, rfl⟩ := (reads_append_iff (parted_of_getLast hc [] rest)).1 h
      cases hmark : isMark c with
      | false =>
          obtain rfl := reads_other hc hmark ha
          exact other c rest w h hw hc hmark ha (ih hw)
      | true =>
          obtain ⟨token, hdenoted, rfl⟩ := reads_mark hmark ha
          exact mark c rest token w h hw hmark hdenoted ha (ih hw)

end Reading

end Element

namespace Token

/-- A text has the tokens that its characters without blanks are read as. -/
theorem ofText_eq_ok_iff
    {text : String} {tokens : List Token} :
    ofText (some text) = .ok tokens
      ↔
    Text.Admissible text ∧ Element.Reads (Text.strip text.toList) tokens := by
  rw [ofText_some, bind_eq_ok_iff, Element.split, List.mapM_map, ← Text.check_eq_ok_iff]
  constructor
  · rintro ⟨_, hcheck, hread⟩
    exact ⟨hcheck, hread⟩
  · rintro ⟨hcheck, hread⟩
    exact ⟨(), hcheck, hread⟩

end Token

end Reckoner
