import Mathlib.Data.List.TakeWhile
import Reckoner.CommandLine.Arguments
import Reckoner.Proofs.Signed

/-!
# Reading assignments

An assignment is read in three steps: the first equals sign divides its text, the name in front of
it is read, and then the number behind it.  Blanks around the name and the number are taken off.
Each step is told here by what it takes apart: a text is in a frame of blanks if it stands between
blanks and has none at its own ends.

**Results.**
* `trim_eq_iff`: what is left of a text in a frame of blanks.
* `divide_eq_some_iff` and `divide_eq_none_iff`: the first equals sign of a text.
* `ofText_expresses`: which texts are assignments, and on what ground the others are refused.
-/

namespace Reckoner

namespace Text

/-- There are blanks around the inner text, and none at its own ends. -/
def Framed (inner text : List Char) : Prop :=
  ∃ before after,
    text = before ++ inner ++ after ∧
    (∀ c ∈ before, isBlank c = true) ∧
    (∀ c ∈ after, isBlank c = true) ∧
    inner.head?.any isBlank = false ∧
    inner.getLast?.any isBlank = false

section Trimming

variable {text inner before after : List Char}

theorem dropWhile_isBlank_append
    (hbefore : ∀ c ∈ before, isBlank c = true)
    (hafter : after.head?.any isBlank = false) :
    (before ++ after).dropWhile isBlank = after := by
  rw [List.dropWhile_append_of_pos hbefore]
  cases after with
  | nil =>
      rfl
  | cons c rest =>
      exact List.dropWhile_cons_of_neg (by simpa using hafter)

theorem head?_dropWhile_isBlank (text : List Char) :
    (text.dropWhile isBlank).head?.any isBlank = false := by
  have hhead := List.head?_dropWhile_not isBlank text
  cases h : (text.dropWhile isBlank).head? with
  | none =>
      rfl
  | some c =>
      rw [h] at hhead
      exact hhead

theorem framed_trim (text : List Char) :
    Framed (trim text) text := by
  let rest := text.dropWhile isBlank
  have hfront : text = text.takeWhile isBlank ++ rest :=
    List.takeWhile_append_dropWhile.symm
  have hback : rest = trim text ++ (rest.reverse.takeWhile isBlank).reverse := by
    rw [trim, ← List.reverse_append, List.takeWhile_append_dropWhile, List.reverse_reverse]
  refine ⟨text.takeWhile isBlank, (rest.reverse.takeWhile isBlank).reverse, ?_, ?_, ?_, ?_, ?_⟩
  · rw [List.append_assoc, ← hback, ← hfront]
  · intro c hc
    exact List.mem_takeWhile_imp hc
  · intro c hc
    exact List.mem_takeWhile_imp (List.mem_reverse.1 hc)
  · have hfirst : rest.head?.any isBlank = false := head?_dropWhile_isBlank text
    cases hinner : trim text with
    | nil =>
        rfl
    | cons c inner =>
        rw [hback, hinner] at hfirst
        exact hfirst
  · rw [trim, List.getLast?_reverse]
    exact head?_dropWhile_isBlank _

/-- Trimming leaves what stands in a frame of blanks. -/
theorem trim_eq_iff :
    trim text = inner ↔ Framed inner text := by
  constructor
  · rintro rfl
    exact framed_trim text
  · rintro ⟨before, after, rfl, hbefore, hafter, hfirst, hlast⟩
    cases inner with
    | nil =>
        have hblank : ∀ c ∈ before ++ [] ++ after, isBlank c = true := by
          intro c hc
          rw [List.append_nil] at hc
          exact (List.mem_append.1 hc).elim (hbefore c) (hafter c)
        rw [trim, List.dropWhile_eq_nil_iff.2 hblank]
        rfl
    | cons c rest =>
        have hfront : (before ++ (c :: rest) ++ after).dropWhile isBlank = c :: rest ++ after := by
          rw [List.append_assoc]
          exact dropWhile_isBlank_append hbefore hfirst
        have hback :
            (c :: rest ++ after).reverse.dropWhile isBlank = (c :: rest).reverse := by
          rw [List.reverse_append]
          apply dropWhile_isBlank_append
          · simpa using hafter
          · rwa [List.head?_reverse]
        rw [trim, hfront, hback, List.reverse_reverse]

/-- Any blanks may stand around a text that has none. -/
theorem framed_of_not_isBlank
    (hbefore : ∀ c ∈ before, isBlank c = true)
    (hafter : ∀ c ∈ after, isBlank c = true)
    (hinner : ∀ c ∈ inner, isBlank c = false) :
    Framed inner (before ++ inner ++ after) := by
  refine ⟨before, after, rfl, hbefore, hafter, ?_, ?_⟩
  · cases hfirst : inner.head? with
    | none =>
        rfl
    | some c =>
        exact hinner c (List.mem_of_head? hfirst)
  · cases hlast : inner.getLast? with
    | none =>
        rfl
    | some c =>
        exact hinner c (List.mem_of_getLast? hlast)

end Trimming

end Text

namespace CommandLine
namespace Assignment

section Dividing

variable {text before after : List Char}

theorem divide_cons_of_ne
    {c : Char}
    (h : c ≠ '=')
    (rest : List Char) :
    divide (c :: rest) = (divide rest).map fun parts => (c :: parts.1, parts.2) := by
  simp [divide]

/-- A text is divided by its first equals sign. -/
theorem divide_eq_some_iff :
    divide text = some (before, after) ↔ text = before ++ '=' :: after ∧ '=' ∉ before := by
  induction text generalizing before with
  | nil =>
      simp [divide]
  | cons c rest ih =>
      by_cases hc : c = '='
      · subst hc
        constructor
        · intro h
          cases h
          exact ⟨rfl, by simp⟩
        · rintro ⟨hsplit, hfirst⟩
          cases before with
          | nil =>
              cases hsplit
              rfl
          | cons d before =>
              obtain ⟨rfl, _⟩ := List.cons.inj hsplit
              exact absurd List.mem_cons_self hfirst
      · rw [divide_cons_of_ne hc, Option.map_eq_some_iff]
        constructor
        · rintro ⟨⟨start, rear⟩, hdivide, hparts⟩
          cases hparts
          obtain ⟨rfl, hfirst⟩ := ih.1 hdivide
          exact ⟨rfl, by simp [hfirst, Ne.symm hc]⟩
        · rintro ⟨hsplit, hfirst⟩
          cases before with
          | nil =>
              exact absurd (List.cons.inj hsplit).1 hc
          | cons d start =>
              obtain ⟨rfl, hrest⟩ := List.cons.inj hsplit
              rw [List.mem_cons, not_or] at hfirst
              exact ⟨(start, after), ih.2 ⟨hrest, hfirst.2⟩, rfl⟩

theorem divide_eq_none_iff :
    divide text = none ↔ '=' ∉ text := by
  induction text with
  | nil =>
      simp [divide]
  | cons c rest ih =>
      by_cases hc : c = '='
      · subst hc
        simp [divide]
      · rw [divide_cons_of_ne hc, Option.map_eq_none_iff, ih, List.mem_cons, not_or]
        exact (and_iff_right (Ne.symm hc)).symm

end Dividing

section Definitions

/-- The text has an equals sign, and the first one stands between the two parts. -/
structure Divided (text : String) (name number : List Char) : Prop where
  eq : text.toList = name ++ '=' :: number
  first : '=' ∉ name

/-- Apart from the blanks around it, the part is the letter. -/
def Names (part : List Char) (v : Letter) : Prop :=
  Text.Framed [v.char] part

/-- Apart from the blanks around it, the part denotes the integer. -/
def Numbers (part : List Char) (z : Int) : Prop :=
  ∃ written, Text.Framed written part ∧ Decimal.Denotes written z

end Definitions

section Parts

variable {part : List Char} {v : Letter} {n : Int32}

theorem ofName_trim_eq_ok_iff :
    Letter.ofName (String.ofList (Text.trim part)) = .ok v ↔ Names part v := by
  rw [Letter.ofName_eq_ok_iff, String.toList_ofList, Text.trim_eq_iff, Names]

theorem ofSigned_trim_eq_ok_iff :
    Decimal.ofSigned (Text.trim part) = .ok n ↔ Numbers part n.toInt := by
  rw [Decimal.ofSigned_eq_ok_iff, Numbers]
  simp only [← Text.trim_eq_iff, exists_eq_left']

end Parts

section Texts

variable {text : String} {name number : List Char} {v : Letter} {n : Int32}

theorem ofText_of_not_mem
    (h : '=' ∉ text.toList) :
    ofText text = .error (.undivided text) := by
  rw [ofText, divide_eq_none_iff.2 h]
  rfl

/-- Behind the first equals sign nothing is read before the name is. -/
theorem ofText_of_divided
    (h : Divided text name number) :
    ofText text =
      (Letter.ofName (String.ofList (Text.trim name))).mapError .name >>= fun letter =>
        Assignment.mk letter <$>
          (Decimal.ofSigned (Text.trim number)).mapError (.value letter) := by
  rw [ofText, divide_eq_some_iff.2 ⟨h.eq, h.first⟩]
  rfl

theorem ofText_eq_ok_iff
    (h : Divided text name number) :
    ofText text = .ok ⟨v, n⟩ ↔ Names name v ∧ Numbers number n.toInt := by
  simp only [ofText_of_divided h, bind_eq_ok_iff, map_eq_ok_iff, mapError_eq_ok_iff,
    ofName_trim_eq_ok_iff, ofSigned_trim_eq_ok_iff]
  constructor
  · rintro ⟨letter, hname, value, hnumber, hassignment⟩
    cases hassignment
    exact ⟨hname, hnumber⟩
  · rintro ⟨hname, hnumber⟩
    exact ⟨v, hname, n, hnumber, rfl⟩

theorem divided_of_ofText
    {a : Assignment}
    (h : ofText text = .ok a) :
    ∃ name number, Divided text name number := by
  cases hdivide : divide text.toList with
  | none =>
      rw [ofText_of_not_mem (divide_eq_none_iff.1 hdivide)] at h
      cases h
  | some parts =>
      obtain ⟨heq, hfirst⟩ := divide_eq_some_iff.1 hdivide
      exact ⟨parts.1, parts.2, heq, hfirst⟩

/-- A bad name is reported whatever the number is. -/
theorem ofText_of_not_names
    (h : Divided text name number)
    (hname : ∀ v, ¬ Names name v) :
    ofText text = .error (.name (.invalidName (String.ofList (Text.trim name)))) := by
  rw [ofText_of_divided h]
  cases hread : Letter.ofName (String.ofList (Text.trim name)) with
  | ok v =>
      exact absurd (ofName_trim_eq_ok_iff.1 hread) (hname v)
  | error failure =>
      rw [Letter.eq_invalidName_of_ofName hread]
      rfl

theorem ofText_of_not_numbers
    (h : Divided text name number)
    (hname : Names name v)
    (hnumber : ∀ z, Numbers number z → ¬ Decimal.InRange z) :
    ∃ fault, ofText text = .error (.value v fault) := by
  rw [ofText_of_divided h, ofName_trim_eq_ok_iff.2 hname]
  cases hread : Decimal.ofSigned (Text.trim number) with
  | ok n =>
      exact absurd (Decimal.inRange_toInt n) (hnumber _ (ofSigned_trim_eq_ok_iff.1 hread))
  | error fault =>
      exact ⟨fault, rfl⟩

end Texts

section Writing

variable {front middle between rear : List Char}

theorem names_of_blanks
    (hfront : ∀ c ∈ front, Text.isBlank c = true)
    (hmiddle : ∀ c ∈ middle, Text.isBlank c = true)
    (v : Letter) :
    Names (front ++ [v.char] ++ middle) v := by
  refine Text.framed_of_not_isBlank hfront hmiddle ?_
  intro c hc
  rw [List.mem_singleton.1 hc]
  exact Text.isBlank_of_isMark (Text.isMark_char v)

theorem numbers_of_blanks
    (hbetween : ∀ c ∈ between, Text.isBlank c = true)
    (hrear : ∀ c ∈ rear, Text.isBlank c = true)
    (n : Int32) :
    Numbers (between ++ Decimal.ofInt32 n ++ rear) n.toInt := by
  refine ⟨_, Text.framed_of_not_isBlank hbetween hrear ?_, Decimal.denotes_ofInt32 n⟩
  intro c hc
  rcases Decimal.isDigit_or_minus_of_mem_ofInt32 hc with hdigit | rfl
  · exact Text.isBlank_of_isDigit hdigit
  · decide

/-- A letter and a number with an equals sign between them are read back, with any blanks around
the one and the other. -/
theorem ofText_written
    (hfront : ∀ c ∈ front, Text.isBlank c = true)
    (hmiddle : ∀ c ∈ middle, Text.isBlank c = true)
    (hbetween : ∀ c ∈ between, Text.isBlank c = true)
    (hrear : ∀ c ∈ rear, Text.isBlank c = true)
    (v : Letter)
    (n : Int32) :
    ofText
        (String.ofList
          (front ++ [v.char] ++ middle ++ '=' :: (between ++ Decimal.ofInt32 n ++ rear))) =
      .ok ⟨v, n⟩ := by
  have hname := names_of_blanks hfront hmiddle v
  have hnumber := numbers_of_blanks hbetween hrear n
  refine (ofText_eq_ok_iff ⟨String.toList_ofList, ?_⟩).2 ⟨hname, hnumber⟩
  have hequals : Text.isBlank '=' = false := by
    decide
  intro hmem
  rcases List.mem_append.1 hmem with hmem | hmem
  · rcases List.mem_append.1 hmem with hmem | hmem
    · rw [hfront _ hmem] at hequals
      cases hequals
    · exact v.char_ne (by decide) (List.mem_singleton.1 hmem).symm
  · rw [hmiddle _ hmem] at hequals
    cases hequals

end Writing

/-- A text is an assignment exactly if it has an equals sign, a letter in front of the first one and
the digits of a number in range behind it, with an optional sign, and nothing else but blanks around
the two.  A missing equals sign is reported first, then the name, then the number.  So a letter and
any number are assigned by writing them down, with any blanks around them. -/
theorem ofText_expresses :
    (∀ text v n,
      ofText text = .ok ⟨v, n⟩
        ↔
      ∃ name number z,
        Divided text name number ∧
        Names name v ∧
        Numbers number z ∧
        -2147483648 ≤ z ∧ z ≤ 2147483647 ∧
        n.toInt = z)
      ∧
    (∀ text,
      '=' ∉ text.toList →
      ofText text = .error (.undivided text))
      ∧
    (∀ text name number,
      Divided text name number →
      (∀ v, ¬ Names name v) →
      ∃ quoted,
        Text.Framed quoted name ∧
        ofText text = .error (.name (.invalidName (String.ofList quoted))))
      ∧
    (∀ text name number v,
      Divided text name number →
      Names name v →
      (∀ z, Numbers number z → ¬ (-2147483648 ≤ z ∧ z ≤ 2147483647)) →
      ∃ fault, ofText text = .error (.value v fault))
      ∧
    (∀ (v : Letter) (n : Int32) (front middle between rear : List Char),
      (∀ c ∈ front ++ middle ++ between ++ rear, Text.isBlank c = true) →
      ofText
          (String.ofList
            (front ++ [v.char] ++ middle ++ '=' :: (between ++ Decimal.ofInt32 n ++ rear))) =
        .ok ⟨v, n⟩) := by
  refine ⟨?_, fun text => ofText_of_not_mem, ?_, ?_, ?_⟩
  · intro text v n
    constructor
    · intro h
      obtain ⟨name, number, hdivided⟩ := divided_of_ofText h
      obtain ⟨hname, hnumber⟩ := (ofText_eq_ok_iff hdivided).1 h
      obtain ⟨hlow, hhigh⟩ := Decimal.inRange_toInt n
      exact ⟨name, number, n.toInt, hdivided, hname, hnumber, hlow, hhigh, rfl⟩
    · rintro ⟨name, number, _, hdivided, hname, hnumber, _, _, rfl⟩
      exact (ofText_eq_ok_iff hdivided).2 ⟨hname, hnumber⟩
  · intro text name number hdivided hname
    exact ⟨_, Text.framed_trim name, ofText_of_not_names hdivided hname⟩
  · intro text name number v hdivided hname hnumber
    exact ofText_of_not_numbers hdivided hname hnumber
  · intro v n front middle between rear h
    simp only [List.forall_mem_append] at h
    obtain ⟨⟨⟨hfront, hmiddle⟩, hbetween⟩, hrear⟩ := h
    exact ofText_written hfront hmiddle hbetween hrear v n

/-- The least number is read, with an ideographic space in front of it, and so is a number with a
plus sign and zeros.  A bad name is reported before a number that is one too great. -/
theorem ofText_expresses_ends_of_range :
    ofText " a=\u3000-2147483648" = .ok ⟨⟨'a', rfl⟩, -2147483648⟩
      ∧
    ofText "a = +007" = .ok ⟨⟨'a', rfl⟩, 7⟩
      ∧
    ofText "ab" = .error (.undivided "ab")
      ∧
    (∃ quoted, ofText "ab=2147483648" = .error (.name (.invalidName quoted)))
      ∧
    ∃ fault, ofText "a=2147483648" = .error (.value ⟨'a', rfl⟩ fault) := by
  obtain ⟨haccepted, hundivided, hname, hnumber, hwritten⟩ := ofText_expresses
  refine ⟨?_, ?_, ?_, ?_, ?_⟩
  · exact hwritten ⟨'a', rfl⟩ (-2147483648) [' '] [] ['\u3000'] [] (List.all_eq_true.1 (by decide))
  · refine (haccepted _ _ _).2
      ⟨['a', ' '], [' ', '+', '0', '0', '7'], 7, ⟨rfl, by decide⟩, ?_, ?_, by decide, by decide,
        by decide⟩
    · exact Text.trim_eq_iff.1 (by decide)
    · have hrun : Text.IsRun ['0', '0', '7'] := ⟨by decide, List.all_eq_true.1 (by decide)⟩
      exact ⟨['+', '0', '0', '7'], Text.trim_eq_iff.1 (by decide), .plus hrun⟩
  · exact hundivided "ab" (by decide)
  · have hbad : ∀ v, ¬ Names ['a', 'b'] v := by
      intro v hv
      have htrimmed : Text.trim ['a', 'b'] = ['a', 'b'] := by
        decide
      have hlength := congrArg List.length (htrimmed.symm.trans (Text.trim_eq_iff.2 hv))
      simp at hlength
    obtain ⟨_, _, hrefused⟩ :=
      hname "ab=2147483648" ['a', 'b'] "2147483648".toList ⟨rfl, by decide⟩ hbad
    exact ⟨_, hrefused⟩
  · refine hnumber "a=2147483648" ['a'] "2147483648".toList _ ⟨rfl, by decide⟩ ?_ ?_
    · exact Text.trim_eq_iff.1 (by decide)
    · rintro z ⟨written, hframed, hdenotes⟩ ⟨_, hhigh⟩
      have hwritten : "2147483648".toList = written :=
        (show Text.trim "2147483648".toList = "2147483648".toList by decide).symm.trans
          (Text.trim_eq_iff.2 hframed)
      subst hwritten
      obtain ⟨_, hz⟩ := Decimal.denotes_iff.1 hdenotes
      have hgreat : z = 2147483648 := hz
      omega

end Assignment
end CommandLine

end Reckoner
