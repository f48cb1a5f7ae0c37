import MiniLisp.Text.Blank
import MiniLisp.Text.Pieces

/-!
The words of a text, and the excerpt by which messages refer to a long text: its words with one
space between them, cut to a width and closed by three dots.
-/

namespace MiniLisp.Text

/-- The pieces of a text after one more character to the left. -/
def wordStep (c : Char) (p : Pieces) : Pieces :=
  if isBlank c then p.cut else p.grow c

/-- The maximal runs of characters that are not blank, in order. -/
def words (cs : List Char) : List (List Char) :=
  (cs.foldr wordStep .empty).toList

/-- A text with its words kept and one space between neighbours. -/
def normalized (cs : List Char) : List Char :=
  [' '].intercalate (words cs)

/-- The characters before position `stop`, which counts from the end where it is negative and never
reaches past either end. -/
def upTo (stop : Int) (cs : List Char) : List Char :=
  if 0 ≤ stop then cs.take stop.toNat else cs.take (cs.length + stop).toNat

/-- The normalized text, if it has at most `width` characters; else its characters up to three before
`width`, and three dots. -/
def excerptChars (width : Int) (cs : List Char) : List Char :=
  let text := normalized cs
  if (text.length : Int) ≤ width then text else upTo (width - 3) text ++ ['.', '.', '.']

/-- The width of the excerpts in messages. -/
def excerptWidth : Int := 60

/-- The excerpt of a text. -/
def excerpt (text : String) (width : Int) : String :=
  String.ofList (excerptChars width text.toList)

end MiniLisp.Text
