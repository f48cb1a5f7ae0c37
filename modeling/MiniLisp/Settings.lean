import MiniLisp.Numeral
import MiniLisp.Text.Blank
import MiniLisp.Text.DecimalDigit

/-!
Settings from the texts of two variables: the recursion limit, and the level of the log. A text that
is not well formed counts as none.
-/

namespace MiniLisp.Settings

/-! ## Recursion limit -/

/-- The recursion limit where none is set. -/
def defaultLimit : Nat := 10000

/-- A character that may stand around a number: any blank one but the four separators. -/
def isMargin (c : Char) : Bool :=
  Text.isBlank c && !Text.inRanges [(0x1c, 0x1f)] c

/-- A text without the margin characters at its two ends. -/
def trim (cs : List Char) : List Char :=
  ((cs.dropWhile isMargin).reverse.dropWhile isMargin).reverse

/-- The digits of a number in any script. A single underscore may stand between two digits. -/
def groupedDigits? : List Char → Option (List Nat)
  | [] => none
  | [c] => (Text.decimalDigit? c).map ([·])
  | c :: '_' :: rest => do
    let digit ← Text.decimalDigit? c
    let digits ← groupedDigits? rest
    some (digit :: digits)
  | c :: rest => do
    let digit ← Text.decimalDigit? c
    let digits ← groupedDigits? rest
    some (digit :: digits)

/-- The natural number with the given digits. -/
def ofDigits (digits : List Nat) : Nat :=
  digits.foldl (fun n digit => 10 * n + digit) 0

/-- The integer that a text spells, with at most as many digits as a numeral has. -/
def integer? (cs : List Char) : Option Int := do
  let (negative, body) := Numeral.splitSign (trim cs)
  let digits ← groupedDigits? body
  if digits.length ≤ Numeral.maxDigits then
    some (if negative then -(ofDigits digits : Int) else ofDigits digits)
  else none

/-- The recursion limit that a text sets: the positive integer that it spells, else the default. -/
def recursionLimit : Option String → Nat
  | none => defaultLimit
  | some text =>
    match integer? text.toList with
    | none => defaultLimit
    | some n => if 0 < n then n.toNat else defaultLimit

/-! ## Log level -/

/-- The levels of the log by name. -/
def levels : List (String × Nat) :=
  [("CRITICAL", 50), ("FATAL", 50), ("ERROR", 40), ("WARNING", 30), ("WARN", 30), ("INFO", 20),
   ("DEBUG", 10), ("NOTSET", 0)]

/-- The level of the log where none is set. -/
def defaultLevel : Nat := 30

/-- The upper case of a letter, as far as it can be part of the name of a level: besides the plain
letters, the dotless `ı` and the long `ſ` have plain upper cases. -/
def upper (c : Char) : Char :=
  if c = 'ı' then 'I' else if c = 'ſ' then 'S' else c.toUpper

/-- The level that a text names in any case and with blanks around it, else the default. -/
def logLevel : Option String → Nat
  | none => defaultLevel
  | some text =>
    (levels.lookup (String.ofList ((Text.strip text.toList).map upper))).getD defaultLevel

/-- The layout of a line of the log. -/
def logFormat : String :=
  "%(asctime)s %(levelname)s %(name)s: %(message)s"

end MiniLisp.Settings
