import MiniLisp.Proofs.Building.Equations
import MiniLisp.Proofs.Evaluation.Headroom

/-!
Building in a headroom. More room never changes what an S-expression builds to, unless building ran out
of frames, and some number of frames is enough for every S-expression (`Expr.build_graded`).
-/

namespace MiniLisp.Expr

open MiniLisp.Graded

theorem buildQuoted_graded (node : SExpr) : Graded fun room => buildQuoted room node := by
  unfold buildQuoted
  exact ite (by simp) node.quotedFrames

theorem paramNames_graded (node : SExpr) : Graded fun room => paramNames room node := by
  cases node with
  | atom text =>
    simp only [paramNames]
    exact error (by simp)
  | list params =>
    simp only [paramNames]
    refine bind (mapM (fun param => ?_) params) fun names => ?_
    · cases param with
      | atom name => exact ok name
      | list items => exact report _ (by simp)
    · by_cases hnodup : names.Nodup
      · simp only [if_pos hnodup]
        exact ok names
      · simp only [if_neg hnodup]
        exact error (by simp)

mutual

theorem build_graded : ∀ node : SExpr, Graded fun room => build room node
  | .atom text => by
    simp only [build_atom]
    exact enter.bind fun _ => ok _
  | .list [] => by
    simp only [build_nil]
    exact enter.bind fun _ => error (by simp)
  | .list (head :: rest) => by
    have hhead := build_graded head
    have hclauses := buildClauses_graded rest
    have hargs := buildAll_graded rest
    cases hkeyword : Keyword.ofHead? head with
    | none =>
      simp only [build_application _ hkeyword]
      exact enter.bind fun _ => (hhead.below 1).bind fun func => (hargs.below 2).map (Expr.app func)
    | some keyword =>
      simp only [build_form _ hkeyword]
      refine enter.bind fun _ => ?_
      cases keyword with
      | quote =>
        match rest with
        | [datum] => exact ((buildQuoted_graded datum).below 2).map Expr.quote
        | [] | _ :: _ :: _ => exact error (by simp)
      | cond => exact (hclauses.below 2).map Expr.cond
      | lambda =>
        match rest with
        | [params, body] =>
          have hbody := build_graded body
          exact ((paramNames_graded params).below 2).bind fun names =>
            (hbody.below 2).map (Expr.lambda names)
        | [] | [_] | _ :: _ :: _ :: _ => exact error (by simp)

theorem buildClauses_graded :
    ∀ clauses : List SExpr, Graded fun room => buildClauses room clauses
  | [] => by
    simp only [buildClauses]
    exact ok _
  | .list [question, answer] :: clauses => by
    simp only [buildClauses]
    exact (build_graded question).bind fun q => (build_graded answer).bind fun a =>
      (buildClauses_graded clauses).map ((q, a) :: ·)
  | .atom _ :: _ | .list [] :: _ | .list [_] :: _ | .list (_ :: _ :: _ :: _) :: _ => by
    simp only [buildClauses]
    exact report _ (by simp)

theorem buildAll_graded : ∀ items : List SExpr, Graded fun room => buildAll room items
  | [] => by
    simp only [buildAll]
    exact ok _
  | item :: items => by
    simp only [buildAll]
    exact (build_graded item).bind fun e => (buildAll_graded items).map (e :: ·)

end

end MiniLisp.Expr
