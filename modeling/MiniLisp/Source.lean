import MiniLisp.Expr.Builder
import MiniLisp.SExpr.Reader

/-!
Programs at any stage of reading: as text, as tokens, as an S-expression or as an expression.
-/

namespace MiniLisp

/-- A program that still has to be built. -/
inductive Source where
  | text (s : String)
  | tokens (ts : List Token)
  | node (n : SExpr)

namespace Source

/-- The tokens of a program, or the S-expression that it is already. -/
def read : Source → Except Fault SExpr
  | .text s => SExpr.oneOfTokens (Token.ofText s)
  | .tokens ts => SExpr.oneOfTokens ts
  | .node n => .ok n

/-- The expression of a program. -/
def build (source : Source) : Except Fault Expr :=
  source.read >>= Expr.build .unlimited

end Source

/-- A program to be built, or an expression given as such. -/
inductive Program where
  | source (s : Source)
  | expr (e : Expr)

/-- The expression of a program. -/
def Program.build : Program → Except Fault Expr
  | .source s => s.build
  | .expr e => .ok e

end MiniLisp
