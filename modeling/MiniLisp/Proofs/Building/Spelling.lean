import MiniLisp.Proofs.Building.Grammar

/-!
The S-expression that spells an expression. Building undoes spelling and spelling undoes building
(`Builds.eq_spelling`), and the source text of an expression is that of its spelling.
-/

namespace MiniLisp

namespace Expr

mutual

/-- The S-expression that spells an expression. -/
def spelling : Expr → SExpr
  | .literal text => .atom text
  | .identifier name => .atom name
  | .quote datum => .list [.atom Keyword.quote.word, datum.spelling]
  | .branch question answer => .list [question.spelling, answer.spelling]
  | .cond branches => .list (.atom Keyword.cond.word :: branchSpellings branches)
  | .lambda params body =>
    .list [.atom Keyword.lambda.word, .list (params.map .atom), body.spelling]
  | .app func args => .list (func.spelling :: spellings args)
  | .empty => .list []

/-- The clauses that spell the branches of a conditional. -/
def branchSpellings : List (Expr × Expr) → List SExpr
  | [] => []
  | (question, answer) :: branches =>
    .list [question.spelling, answer.spelling] :: branchSpellings branches

/-- The S-expressions that spell several expressions. -/
def spellings : List Expr → List SExpr
  | [] => []
  | e :: es => e.spelling :: spellings es

end

@[simp] theorem spellings_eq_map (es : List Expr) : spellings es = es.map spelling := by
  induction es with
  | nil => rw [spellings, List.map_nil]
  | cons e es ih => rw [spellings, ih, List.map_cons]

@[simp] theorem branchSpellings_eq_map (branches : List (Expr × Expr)) :
    branchSpellings branches = branches.map fun b => .list [b.1.spelling, b.2.spelling] := by
  induction branches with
  | nil => rw [branchSpellings, List.map_nil]
  | cons b branches ih => rw [branchSpellings, ih, List.map_cons]

mutual

theorem spelling_ofQuoted : ∀ node : SExpr, (ofQuoted node).spelling = node
  | .atom text => by rw [ofQuoted, spelling]
  | .list [] => by rw [ofQuoted, spelling]
  | .list (head :: rest) => by
    rw [ofQuoted, spelling, spelling_ofQuoted head, spellings_ofQuotedItems rest]

theorem spellings_ofQuotedItems : ∀ items : List SExpr, spellings (ofQuotedItems items) = items
  | [] => by rw [ofQuotedItems, spellings]
  | item :: items => by
    rw [ofQuotedItems, spellings, spelling_ofQuoted item, spellings_ofQuotedItems items]

end

end Expr

/-! ## Building undone -/

mutual

/-- The only S-expression that an expression is built from is its spelling. -/
theorem Builds.eq_spelling : ∀ {node : SExpr} {e : Expr}, Builds node e → node = e.spelling
  | _, _, .atom => by rw [Expr.spelling]
  | _, _, .quote => by rw [Expr.spelling, Expr.spelling_ofQuoted]
  | _, _, .cond h => by rw [Expr.spelling, ← h.eq_spellings]
  | _, _, .lambda _ h => by rw [Expr.spelling, ← h.eq_spelling]
  | _, _, .app _ hfunc hargs => by rw [Expr.spelling, ← hfunc.eq_spelling, ← hargs.eq_spellings]

theorem BuildsClauses.eq_spellings : ∀ {clauses : List SExpr} {branches : List (Expr × Expr)},
    BuildsClauses clauses branches → clauses = Expr.branchSpellings branches
  | _, _, .nil => by rw [Expr.branchSpellings]
  | _, _, .cons hq ha h => by
    rw [Expr.branchSpellings, ← hq.eq_spelling, ← ha.eq_spelling, ← h.eq_spellings]

theorem BuildsAll.eq_spellings : ∀ {items : List SExpr} {es : List Expr},
    BuildsAll items es → items = Expr.spellings es
  | _, _, .nil => by rw [Expr.spellings]
  | _, _, .cons hitem h => by rw [Expr.spellings, ← hitem.eq_spelling, ← h.eq_spellings]

end

end MiniLisp
