/-!
# Decimal numbers

Numbers are 32-bit signed integers.  A run of digits denotes its value when that is at most
`2147483647`, however many zeros lead it; a number with a sign may go down to `-2147483648`.
-/

namespace Reckoner
namespace Decimal

def value (digits : List Char) : Nat :=
  Nat.ofDigitChars 10 digits 0

def ofDigits? (digits : List Char) : Option Int32 :=
  if value digits ≤ 2147483647 then some (Int32.ofNat (value digits)) else none

def ofNat (n : Nat) : List Char :=
  Nat.toDigits 10 n

def ofInt32 (n : Int32) : List Char :=
  if n.toInt < 0 then '-' :: ofNat n.toInt.natAbs else ofNat n.toInt.natAbs

@[simp] theorem value_ofNat (n : Nat) : value (ofNat n) = n :=
  Nat.ofDigitChars_ten_toDigits

section Signed

/-- Why a text is not a number with an optional sign. -/
inductive Fault where
  | empty
  | invalidDigit
  | tooLarge
  | tooSmall
deriving DecidableEq

def Fault.message : Fault → String
  | empty => "cannot parse integer from empty string"
  | invalidDigit => "invalid digit found in string"
  | tooLarge => "number too large to fit in target type"
  | tooSmall => "number too small to fit in target type"

inductive Sign where
  | plus
  | minus
deriving DecidableEq

/-- Appends a digit to a number, away from zero. -/
def Sign.append : Sign → Int → Nat → Int
  | plus, n, d => n * 10 + d
  | minus, n, d => n * 10 - d

def Sign.step (sign : Sign) (n : Int) (c : Char) : Except Fault Int :=
  if c.isDigit then
    let next := sign.append n (c.toNat - '0'.toNat)
    if next < -2147483648 then .error .tooSmall
    else if 2147483647 < next then .error .tooLarge
    else .ok next
  else .error .invalidDigit

def Sign.read (sign : Sign) (digits : List Char) : Except Fault Int32 :=
  Int32.ofInt <$> digits.foldlM sign.step 0

/-- The sign at the head of a number, a plus sign if there is none, and what follows it. -/
def Sign.split : List Char → Sign × List Char
  | '+' :: digits => (plus, digits)
  | '-' :: digits => (minus, digits)
  | digits => (plus, digits)

/-- The number that a text denotes: an optional sign, then one digit or more. -/
def ofSigned (text : List Char) : Except Fault Int32 :=
  if text.isEmpty then .error .empty
  else
    let (sign, digits) := Sign.split text
    if digits.isEmpty then .error .invalidDigit else sign.read digits

end Signed

end Decimal
end Reckoner
