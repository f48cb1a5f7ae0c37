import MiniLisp.Expr.Builder

/-!
The equations of the builder for an atom, the empty list, a special form and an application. Later proofs use
these and do not open the builder.
-/

namespace MiniLisp.Expr

/-- Builds a special form from what stands after its keyword. -/
def buildForm (room : Headroom) : Keyword → List SExpr → Except Fault Expr
  | .quote, [datum] => .quote <$> buildQuoted (room.below 2) datum
  | .quote, _ => .error .quoteShape
  | .cond, clauses => .cond <$> buildClauses (room.below 2) clauses
  | .lambda, [params, body] => do
    let names ← paramNames (room.below 2) params
    .lambda names <$> build (room.below 2) body
  | .lambda, _ => .error .lambdaShape

theorem build_atom (room : Headroom) (text : String) :
    build room (.atom text) = (do
      room.enter
      .ok (.literal text)) := by
  rw [build]

theorem build_nil (room : Headroom) :
    build room (.list []) = (do
      room.enter
      .error .emptyApplication) := by
  rw [build]

theorem build_form (room : Headroom) {head : SExpr} {keyword : Keyword}
    (h : Keyword.ofHead? head = some keyword) (rest : List SExpr) :
    build room (.list (head :: rest)) = (do
      room.enter
      buildForm room keyword rest) := by
  rw [build.eq_def]
  simp only [h]
  cases keyword with
  | cond => rfl
  | quote | lambda =>
    match rest with
    | [] | [_] | [_, _] | _ :: _ :: _ :: _ => rfl

theorem build_application (room : Headroom) {head : SExpr} (h : Keyword.ofHead? head = none)
    (rest : List SExpr) :
    build room (.list (head :: rest)) = (do
      room.enter
      let func ← build (room.below 1) head
      .app func <$> buildAll (room.below 2) rest) := by
  rw [build.eq_def]
  simp only [h]

end MiniLisp.Expr
