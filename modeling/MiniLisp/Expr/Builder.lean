import MiniLisp.Headroom
import MiniLisp.Keyword

/-!
Building expressions from S-expressions. An atom is a literal; a list is a special form if its head
is one of the keywords, and an application otherwise. Each form is checked before its parts, and
the parts are built from left to right, so that the first malformed form in source order is
reported. Under `quote` keywords mean nothing.
-/

namespace MiniLisp

namespace Expr

mutual

/-- An S-expression as quoted data. -/
def ofQuoted : SExpr → Expr
  | .atom text => .literal text
  | .list [] => .empty
  | .list (head :: rest) => .app (ofQuoted head) (ofQuotedItems rest)

/-- Several S-expressions as quoted data. -/
def ofQuotedItems : List SExpr → List Expr
  | [] => []
  | item :: items => ofQuoted item :: ofQuotedItems items

end

/-- Builds quoted data. -/
def buildQuoted (room : Headroom) (node : SExpr) : Except Fault Expr :=
  if room.holds node.quotedFrames then .ok (ofQuoted node) else .error .outOfFrames

/-- The parameter names of a lambda: atoms, each of which occurs once. -/
def paramNames (room : Headroom) : SExpr → Except Fault (List String)
  | .atom text => .error (.lambdaParams (.atom text))
  | .list params => do
    let names ← params.mapM fun
      | .atom name => .ok name
      | .list items =>
        .error (room.report (SExpr.list items).debugFrames (.lambdaParam (.list items)))
    if names.Nodup then .ok names else .error (.duplicateParam params)

mutual

/-- Builds the expression of an S-expression. -/
def build (room : Headroom) : SExpr → Except Fault Expr
  | .atom text => do
    room.enter
    .ok (.literal text)
  | .list [] => do
    room.enter
    .error .emptyApplication
  | .list (head :: rest) => do
    room.enter
    match Keyword.ofHead? head with
    | some .quote =>
      match rest with
      | [datum] => .quote <$> buildQuoted (room.below 2) datum
      | _ => .error .quoteShape
    | some .cond => .cond <$> buildClauses (room.below 2) rest
    | some .lambda =>
      match rest with
      | [params, body] => do
        let names ← paramNames (room.below 2) params
        .lambda names <$> build (room.below 2) body
      | _ => .error .lambdaShape
    | none => do
      let func ← build (room.below 1) head
      .app func <$> buildAll (room.below 2) rest

/-- Builds the branches of a conditional, clause by clause. -/
def buildClauses (room : Headroom) : List SExpr → Except Fault (List (Expr × Expr))
  | [] => .ok []
  | .list [question, answer] :: clauses => do
    let q ← build room question
    let a ← build room answer
    ((q, a) :: ·) <$> buildClauses room clauses
  | clause :: _ => .error (room.report clause.debugFrames (.condClause clause))

/-- Builds several expressions from left to right. -/
def buildAll (room : Headroom) : List SExpr → Except Fault (List Expr)
  | [] => .ok []
  | item :: items => do
    let e ← build room item
    (e :: ·) <$> buildAll room items

end

end Expr

end MiniLisp
