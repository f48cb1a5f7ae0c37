/-!
Decimal integers as text. A numeral is an optional sign and one or more of the digits `0` to `9`.
Reading and writing refuse more than `Numeral.maxDigits` digits: reading counts the digits of the
text, leading zeros included, and writing those of the number.
-/

namespace MiniLisp

/-- Why an integer has no text, or a numeral no integer. -/
inductive DigitLimit where
  /-- The numeral has this many digits. -/
  | reading (digits : Nat)
  /-- The number has too many digits. -/
  | writing
  deriving DecidableEq, Repr

namespace Numeral

/-- The most digits that are read or written. -/
def maxDigits : Nat := 4300

/-- The text of a natural number in decimal digits. -/
def natText (n : Nat) : String :=
  String.ofList (Nat.toDigits 10 n)

/-- The text of an integer: a minus sign if it is negative, and its digits. -/
def text (n : Int) : String :=
  if n < 0 then "-" ++ natText n.natAbs else natText n.natAbs

/-- The integer with the given sign and digits. -/
def value (negative : Bool) (digits : List Char) : Int :=
  let magnitude : Int := Nat.ofDigitChars 10 digits 0
  if negative then -magnitude else magnitude

/-- Splits a sign off: whether it is a minus, and what follows it. -/
def splitSign : List Char → Bool × List Char
  | '-' :: digits => (true, digits)
  | '+' :: digits => (false, digits)
  | digits => (false, digits)

/-- The sign and the digits of a numeral. -/
def parts? (cs : List Char) : Option (Bool × List Char) :=
  let (negative, digits) := splitSign cs
  if digits ≠ [] ∧ digits.all Char.isDigit then some (negative, digits) else none

/-- The integer that a numeral spells; no integer for any other text. -/
def read (s : String) : Except DigitLimit (Option Int) :=
  match parts? s.toList with
  | none => .ok none
  | some (negative, digits) =>
    if digits.length ≤ maxDigits then .ok (some (value negative digits))
    else .error (.reading digits.length)

/-- The least magnitude with too many digits. -/
def bound : Nat := Nat.pow 10 maxDigits

/-- The text of an integer. -/
def write (n : Int) : Except DigitLimit String :=
  if n.natAbs < bound then .ok (text n) else .error .writing

end Numeral

/-- What is said of a number beyond the limit. -/
def DigitLimit.message : DigitLimit → String
  | .reading digits =>
    "Exceeds the limit (4300 digits) for integer string conversion: value has " ++
      Numeral.natText digits ++ " digits; use sys.set_int_max_str_digits() to increase the limit"
  | .writing =>
    "Exceeds the limit (4300 digits) for integer string conversion; " ++
      "use sys.set_int_max_str_digits() to increase the limit"

end MiniLisp
