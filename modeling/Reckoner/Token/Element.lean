import Reckoner.Failure
import Reckoner.Text.Characters

/-!
# Elements

An expression is written with digits, the letters `a` to `z`, the marks `+ - * ( )` and the space.
A text is checked as a whole; if the check fails, the report lists each foreign character once, in
the order of first appearance.

An element is the text of one token: a run of digits, or one letter, operator or bracket.  Cutting a
text into its elements passes over every character that belongs to none, but such a character still
separates the digits on its two sides.  Blanks do not: they are taken out beforehand, so digits on
the two sides of a blank form one run.

An element is recognised by one of five classes.  Each class is a condition of its own, and reading
a token asks for them in turn.
-/

namespace Reckoner

namespace Text

section Alphabet

/-- A character that is a token by itself: a letter, an operator or a bracket. -/
def isMark (c : Char) : Bool :=
  c.isLower || c == '+' || c == '-' || c == '*' || c == '(' || c == ')'

def inAlphabet (c : Char) : Bool :=
  c.isDigit || isMark c || c == ' '

def foreigners (text : List Char) : List Char :=
  (text.filter fun c => !inAlphabet c).eraseDups

/-- Accepts a text that is not empty and keeps to the alphabet. -/
def check (text : String) : Except Failure Unit :=
  if text.toList.isEmpty then .error .empty
  else if text.toList.all inAlphabet then .ok ()
  else .error (.foreign (foreigners text.toList) text)

end Alphabet

end Text

namespace Letter

section Names

def ofChar (c : Char) : Except Failure Letter :=
  match ofChar? c with
  | some a => .ok a
  | none => .error (.invalidName (String.singleton c))

/-- The letter that a text names.  Any text but a single letter is refused. -/
def ofName (name : String) : Except Failure Letter :=
  match name.toList with
  | [c] => ofChar c
  | _ => .error (.invalidName name)

@[simp] theorem ofChar_char (a : Letter) : ofChar a.char = .ok a := by
  simp [ofChar]

@[simp] theorem ofName_name (a : Letter) : ofName a.name = .ok a := by
  simp [ofName, name]

theorem ofName_eq_ok_iff
    {name : String} {v : Letter} :
    ofName name = .ok v ↔ name.toList = [v.char] := by
  constructor
  · intro h
    unfold ofName at h
    split at h
    next c hname =>
      unfold ofChar at h
      split at h
      next a ha =>
        cases h
        rw [hname, ofChar?_eq_some_iff.1 ha]
      next =>
        cases h
    next =>
      cases h
  · intro h
    simp only [ofName, h, ofChar_char]

/-- A name is refused for one reason only, and quoted as it is. -/
theorem eq_invalidName_of_ofName
    {name : String} {failure : Failure}
    (h : ofName name = .error failure) :
    failure = .invalidName name := by
  unfold ofName at h
  split at h
  next c hname =>
    have hsingle : String.singleton c = name := by
      rw [← String.toList_inj, hname, String.toList_singleton]
    unfold ofChar at h
    split at h
    · cases h
    · cases h
      rw [hsingle]
  next =>
    cases h
    rfl

end Names

end Letter

/-- The text of one token. -/
abbrev Element := String

namespace Element

section Cutting

/-- Cuts characters into elements.  A digit that stands before another digit joins its run. -/
def cut : List Char → List (List Char)
  | [] => []
  | c :: rest =>
      if c.isDigit then
        if rest.head?.any Char.isDigit then (cut rest).modifyHead (c :: ·)
        else [c] :: cut rest
      else if Text.isMark c then [c] :: cut rest
      else cut rest

def split (text : String) : List Element :=
  (cut (Text.strip text.toList)).map String.ofList

end Cutting

section Classes

def isNumeral (element : Element) : Bool :=
  !element.toList.isEmpty && element.toList.all Char.isDigit

def isName (element : Element) : Bool :=
  match element.toList with
  | [c] => c.isLower
  | _ => false

def isOperand (element : Element) : Bool :=
  isNumeral element || isName element

def isSign (element : Element) : Bool :=
  element == "+" || element == "-" || element == "*"

def isOpening (element : Element) : Bool :=
  element == "("

def isClosing (element : Element) : Bool :=
  element == ")"

end Classes

section Reading

/-- The operator of an element.  Only operators are promised here, so any other element is a broken
promise and not a fault of the input. -/
def toOperator : Element → Except Failure Operator
  | "+" => .ok .add
  | "-" => .ok .subtract
  | "*" => .ok .multiply
  | element => .error (.unexpectedOperator element)

def toConstant (element : Element) : Except Failure Int32 :=
  match Decimal.ofDigits? element.toList with
  | some n => .ok n
  | none => .error (.outOfRange element)

def toToken (element : Element) : Except Failure Token :=
  if isNumeral element then .constant <$> toConstant element
  else if isName element then .letter <$> Letter.ofName element
  else if isSign element then .operator <$> toOperator element
  else if isOpening element then .ok .opening
  else if isClosing element then .ok .closing
  else .error (.unknownElement element)

end Reading

end Element

end Reckoner
