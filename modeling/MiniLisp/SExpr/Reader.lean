import MiniLisp.Fault

/-!
Reading S-expressions from tokens. The reader keeps the elements of the list it is in, and for each
list around it the place of its opening bracket and the elements before it.
-/

namespace MiniLisp.SExpr

/-- What has been read: the elements of the innermost open list, latest first, and the lists around
it from the inside out. With no list open the elements are those of the top level. -/
structure Pending where
  items : List SExpr
  /-- For each open list, the position of its opening bracket and the elements before it. -/
  enclosing : List (Nat × List SExpr)

namespace Pending

/-- Nothing read yet. -/
def start : Pending :=
  ⟨[], []⟩

/-- One more element of the innermost open list. -/
def push (node : SExpr) (p : Pending) : Pending :=
  ⟨node :: p.items, p.enclosing⟩

/-- A list opens at this position. -/
def opened (position : Nat) (p : Pending) : Pending :=
  ⟨[], (position, p.items) :: p.enclosing⟩

/-- The innermost open list is complete, if there is one. -/
def closed? (p : Pending) : Option Pending :=
  match p.enclosing with
  | [] => none
  | (_, before) :: enclosing => some ⟨.list p.items.reverse :: before, enclosing⟩

/-- All that was read at the top level, once no list is open. -/
def finish (p : Pending) : Except Fault (List SExpr) :=
  match p.enclosing with
  | [] => .ok p.items.reverse
  | (position, _) :: _ => .error (.unmatchedOpening position)

end Pending

/-- Reads the tokens from this position on. -/
def readFrom (position : Nat) (p : Pending) : List Token → Except Fault (List SExpr)
  | [] => p.finish
  | token :: rest =>
    if token = Token.opening then readFrom (position + 1) (p.opened position) rest
    else if token = Token.closing then
      match p.closed? with
      | none => .error (.unmatchedClosing position)
      | some p' => readFrom (position + 1) p' rest
    else readFrom (position + 1) (p.push (.atom token)) rest

/-- The S-expressions that the tokens write. -/
def ofTokens (tokens : List Token) : Except Fault (List SExpr) :=
  readFrom 0 .start tokens

/-- The only one of several S-expressions. -/
def single : List SExpr → Except Fault SExpr
  | [] => .error .noExpression
  | [node] => .ok node
  | nodes => .error (.severalExpressions nodes.length)

/-- The one S-expression that the tokens write. -/
def oneOfTokens (tokens : List Token) : Except Fault SExpr :=
  ofTokens tokens >>= single

end MiniLisp.SExpr
