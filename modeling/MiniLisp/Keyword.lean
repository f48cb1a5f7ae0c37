import MiniLisp.SExpr.Basic

/-!
The words with a fixed meaning in programs: the heads of the special forms, and the atoms for the
two booleans.
-/

namespace MiniLisp

/-- The special forms. -/
inductive Keyword where
  | quote
  | cond
  | lambda
  deriving DecidableEq, Repr

namespace Keyword

/-- The word at the head of the form. -/
def word : Keyword → String
  | .quote => "quote"
  | .cond => "cond"
  | .lambda => "lambda"

/-- The special form that this head begins. -/
def ofHead? : SExpr → Option Keyword
  | .list _ => none
  | .atom text =>
    if text = word .quote then some .quote
    else if text = word .cond then some .cond
    else if text = word .lambda then some .lambda
    else none

end Keyword

/-- The atom for true. -/
def trueWord : String := "#t"

/-- The atom for false. -/
def falseWord : String := "#f"

/-- The atom that stands for true as the question of a last branch. -/
def elseWord : String := "else"

end MiniLisp
