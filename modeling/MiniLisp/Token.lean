import MiniLisp.Text.Pieces

/-!
Tokens: each bracket of a source text by itself, and each maximal run of other characters between
brackets and white space. White space separates atoms and is dropped; only four characters count
as such, so that any other character belongs to an atom.
-/

namespace MiniLisp

/-- A bracket, or the text of an atom. -/
abbrev Token := String

namespace Token

/-- The token that opens a list. -/
def opening : Token := "("

/-- The token that closes a list. -/
def closing : Token := ")"

/-- A character that is a token by itself. -/
def isBracket (c : Char) : Bool :=
  c == '(' || c == ')'

/-- White space between tokens. -/
def isSpace (c : Char) : Bool :=
  c == ' ' || c == '\t' || c == '\n' || c == '\r'

/-- A character of an atom. -/
def isAtomChar (c : Char) : Bool :=
  !isBracket c && !isSpace c

/-- The pieces of a source text after one more character to the left. -/
def scanStep (c : Char) (p : Text.Pieces) : Text.Pieces :=
  if isBracket c then p.single c else if isSpace c then p.cut else p.grow c

/-- The pieces of a source text. -/
def scan (cs : List Char) : Text.Pieces :=
  cs.foldr scanStep .empty

/-- The tokens of a source text, in order. -/
def ofText (text : String) : List Token :=
  (scan text.toList).toList.map String.ofList

@[simp] theorem scan_nil : scan [] = .empty := rfl

@[simp] theorem scan_cons (c : Char) (cs : List Char) : scan (c :: cs) = scanStep c (scan cs) := rfl

theorem scan_append (cs ds : List Char) : scan (cs ++ ds) = cs.foldr scanStep (scan ds) := by
  simp [scan]

end Token

end MiniLisp
