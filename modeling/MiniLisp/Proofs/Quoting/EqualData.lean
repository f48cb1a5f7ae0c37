import MiniLisp.Proofs.Evaluation.Agreement
import MiniLisp.Proofs.Quoting.QuotedForms

/-!
Equal data. Quoted S-expressions are equal exactly if they are the same tree in canonical form
(`equality_of_quotations`). A program that is quoted as an expression gives the same datum as one that is
quoted as an S-expression, but for parameters of lambdas that read as constants: as names they are symbols
(`forms_and_plain_data_agree`).
-/

namespace MiniLisp

/-! ## Names that read as constants -/

/-- The text spells an integer or a boolean. -/
def SpellsConstant (text : String) : Prop :=
  (Numeral.integer? text).isSome = true ∨ text = trueWord ∨ text = falseWord

instance (text : String) : Decidable (SpellsConstant text) :=
  inferInstanceAs (Decidable (_ ∨ _ ∨ _))

theorem Datum.symbol_eq_ofText_iff {text : String} :
    Datum.symbol text = .ofText text ↔ ¬ SpellsConstant text := by
  rw [Datum.ofText, SpellsConstant]
  cases Numeral.integer? text with
  | some n => simp
  | none =>
    dsimp only
    by_cases htrue : text = trueWord
    · simp [htrue]
    · rw [if_neg htrue]
      by_cases hfalse : text = falseWord <;> simp [htrue, hfalse]

/-- Symbols are the data that their names spell exactly if none of the names reads as a constant. -/
theorem Datum.symbols_eq_ofSExprs_iff {names : List String} :
    names.map Datum.symbol = Datum.ofSExprs (names.map .atom) ↔
      ∀ name ∈ names, ¬ SpellsConstant name := by
  induction names with
  | nil => exact iff_of_true rfl (by simp)
  | cons name names ih =>
    rw [List.map_cons, List.map_cons, ofSExprs, ofSExpr, List.cons.injEq, symbol_eq_ofText_iff, ih,
      List.forall_mem_cons]

theorem Keyword.ofSExpr_word (keyword : Keyword) :
    Datum.ofSExpr (.atom keyword.word) = .symbol keyword.word := by
  cases keyword <;> rfl

/-! ## Forms as data -/

namespace Expr

mutual

/-- The parameters of all lambdas of an expression, but for those in quoted data. -/
def lambdaParams : Expr → List String
  | .literal _ => []
  | .identifier _ => []
  | .quote _ => []
  | .branch question answer => question.lambdaParams ++ answer.lambdaParams
  | .cond branches => branchLambdaParams branches
  | .lambda params body => params ++ body.lambdaParams
  | .app func args => func.lambdaParams ++ lambdaParamsOf args
  | .empty => []

/-- The parameters of all lambdas of the branches of a conditional. -/
def branchLambdaParams : List (Expr × Expr) → List String
  | [] => []
  | (question, answer) :: branches =>
    question.lambdaParams ++ answer.lambdaParams ++ branchLambdaParams branches

/-- The parameters of all lambdas of several expressions. -/
def lambdaParamsOf : List Expr → List String
  | [] => []
  | e :: es => e.lambdaParams ++ lambdaParamsOf es

end

end Expr

open MiniLisp.Expr

mutual

/-- What is built has branches in conditionals only. -/
theorem Builds.bareBranches_eq : ∀ {node : SExpr} {e : Expr}, Builds node e → e.bareBranches = []
  | _, _, .atom => by rw [bareBranches]
  | _, _, .quote => by rw [bareBranches, bareBranches_ofQuoted]
  | _, _, .cond h => by rw [bareBranches, h.bareBranches_eq]
  | _, _, .lambda _ h => by rw [bareBranches, h.bareBranches_eq]
  | _, _, .app _ hfunc hargs => by
    rw [bareBranches, hfunc.bareBranches_eq, hargs.bareBranches_eq, List.append_nil]

theorem BuildsClauses.bareBranches_eq : ∀ {clauses : List SExpr} {branches : List (Expr × Expr)},
    BuildsClauses clauses branches → bareInBranches branches = []
  | _, _, .nil => rfl
  | _, _, .cons hq ha h => by
    rw [bareInBranches, hq.bareBranches_eq, ha.bareBranches_eq, h.bareBranches_eq]
    rfl

theorem BuildsAll.bareBranches_eq : ∀ {items : List SExpr} {es : List Expr},
    BuildsAll items es → bareBranchesOf es = []
  | _, _, .nil => rfl
  | _, _, .cons hitem h => by
    rw [bareBranchesOf, hitem.bareBranches_eq, h.bareBranches_eq, List.append_nil]

end

mutual

/-- What is built spells the datum that its S-expression spells exactly if no parameter reads as a
constant. -/
theorem Builds.toDatum_eq_iff : ∀ {node : SExpr} {e : Expr}, Builds node e →
    (e.toDatum = .ofSExpr node ↔ ∀ param ∈ e.lambdaParams, ¬ SpellsConstant param)
  | _, _, .atom => by
    rw [toDatum, Datum.ofSExpr, lambdaParams]
    exact iff_of_true rfl (by simp)
  | _, _, .quote => by
    rw [toDatum, Datum.ofSExpr, Datum.ofSExprs, Datum.ofSExprs, Datum.ofSExprs, toDatum_ofQuoted,
      Keyword.ofSExpr_word, lambdaParams]
    exact iff_of_true rfl (by simp)
  | _, _, .cond h => by
    have hbranches := h.branchesToData_eq_iff
    rw [toDatum, Datum.ofSExpr, Datum.ofSExprs, Keyword.ofSExpr_word, lambdaParams, ← hbranches]
    simp
  | _, _, .lambda _ h => by
    have hbody := h.toDatum_eq_iff
    rw [lambdaParams, List.forall_mem_append, ← hbody, ← Datum.symbols_eq_ofSExprs_iff, toDatum,
      Datum.ofSExpr, Datum.ofSExprs, Datum.ofSExprs, Datum.ofSExprs, Datum.ofSExprs,
      Keyword.ofSExpr_word, Datum.ofSExpr]
    simp
  | _, _, .app _ hfunc hargs => by
    rw [lambdaParams, List.forall_mem_append, ← hfunc.toDatum_eq_iff, ← hargs.toData_eq_iff, toDatum,
      Datum.ofSExpr, Datum.ofSExprs, Datum.list.injEq, List.cons.injEq]

theorem BuildsClauses.branchesToData_eq_iff :
    ∀ {clauses : List SExpr} {branches : List (Expr × Expr)}, BuildsClauses clauses branches →
      (branchesToData branches = Datum.ofSExprs clauses ↔
        ∀ param ∈ branchLambdaParams branches, ¬ SpellsConstant param)
  | _, _, .nil => iff_of_true rfl (by simp [branchLambdaParams])
  | _, _, .cons hq ha h => by
    rw [branchLambdaParams, List.forall_mem_append, List.forall_mem_append, ← hq.toDatum_eq_iff,
      ← ha.toDatum_eq_iff, ← h.branchesToData_eq_iff, branchesToData]
    simp [Datum.ofSExpr, Datum.ofSExprs]

theorem BuildsAll.toData_eq_iff : ∀ {items : List SExpr} {es : List Expr}, BuildsAll items es →
    (toData es = Datum.ofSExprs items ↔ ∀ param ∈ lambdaParamsOf es, ¬ SpellsConstant param)
  | _, _, .nil => iff_of_true rfl (by simp [lambdaParamsOf])
  | _, _, .cons hitem h => by
    rw [lambdaParamsOf, List.forall_mem_append, ← hitem.toDatum_eq_iff, ← h.toData_eq_iff, toData,
      Datum.ofSExprs, List.cons.injEq]

end

/-- A program is data in two ways: by the expression that is built from it, and as plain data under
`quote`. Both ways give a datum, and the values of the two are equal exactly if no lambda of the expression,
outside of quoted data, has a parameter that reads as a constant. -/
theorem forms_and_plain_data_agree {node : SExpr} {e : Expr}
    (hbuild : Expr.build .unlimited node = .ok e) (hnumerals : node.NumeralsWithinLimit) :
    ∃ d d', e.datum .unlimited = .ok d ∧ (Expr.ofQuoted node).datum .unlimited = .ok d' ∧
      ∀ next next', (d.place next).1.isEqual (d'.place next').1 = true ↔
        ∀ param ∈ e.lambdaParams, ¬ SpellsConstant param := by
  have hbuilds := build_eq_ok_iff.1 hbuild
  have hspelled : e.spelling.NumeralsWithinLimit := hbuilds.eq_spelling ▸ hnumerals
  have hdatum := datum_eq e (numeralsWithinLimit_of_spelling hspelled)
  rw [hbuilds.bareBranches_eq, refusing] at hdatum
  refine ⟨e.toDatum, .ofSExpr node, hdatum, datum_ofQuoted_eq hnumerals, fun next next' => ?_⟩
  rw [Datum.isEqual_place, hbuilds.toDatum_eq_iff]

/-- A lambda whose second parameter is a keyword or a numeral: only the keyword is the same datum either
way. Other numerals do not matter, and neither does the quoted lambda in the body. -/
theorem lambda_with_numeral_for_parameter :
    let form (param : String) : SExpr := .list [.atom "lambda", .list [.atom "x", .atom param],
      .list [.atom "cond", .list [.atom "#t",
        .list [.atom "quote", .list [.atom "lambda", .list [.atom "1"], .atom "-03"]]]]]
    let e (param : String) : Expr := .lambda ["x", param] (.cond [(.literal "#t",
      .quote (.app (.literal "lambda") [.app (.literal "1") [], .literal "-03"]))])
    Expr.build .unlimited (form "else") = .ok (e "else") ∧
      Expr.build .unlimited (form "007") = .ok (e "007") ∧
      (∃ d d', (e "else").datum .unlimited = .ok d ∧
        (Expr.ofQuoted (form "else")).datum .unlimited = .ok d' ∧
        (d.place 0).1.isEqual (d'.place 20).1 = true) ∧
      ∃ d d', (e "007").datum .unlimited = .ok d ∧
        (Expr.ofQuoted (form "007")).datum .unlimited = .ok d' ∧
        (d.place 0).1.isEqual (d'.place 20).1 = false := by
  intro form e
  have hkeyword : Expr.build .unlimited (form "else") = .ok (e "else") := by cbv
  have hnumeral : Expr.build .unlimited (form "007") = .ok (e "007") := by cbv
  obtain ⟨d, d', hd, hd', hsame⟩ := forms_and_plain_data_agree hkeyword (by decide)
  obtain ⟨f, f', hf, hf', hother⟩ := forms_and_plain_data_agree hnumeral (by decide)
  refine ⟨hkeyword, hnumeral, ⟨d, d', hd, hd', (hsame 0 20).2 (by decide)⟩, f, f', hf, hf', ?_⟩
  exact Bool.eq_false_iff.2 (mt (hother 0 20).1 (by decide))

/-! ## Equal quotations -/

/-- Quoted S-expressions have equal values exactly if they are the same tree with integers in canonical
form. So does the program that compares the two quotations come to true or false, wherever the name of
the comparison is not bound. -/
theorem equality_of_quotations {node node' : SExpr} (h : node.NumeralsWithinLimit)
    (h' : node'.NumeralsWithinLimit) :
    (∃ d d', (Expr.ofQuoted node).datum .unlimited = .ok d ∧
      (Expr.ofQuoted node').datum .unlimited = .ok d' ∧
      ∀ next next', (d.place next).1.isEqual (d'.place next').1 = true ↔
        node.mapAtoms Numeral.canonical = node'.mapAtoms Numeral.canonical) ∧
      ∃ e, Expr.build .unlimited (.list [.atom Primitive.eq.name,
          .list [.atom Keyword.quote.word, node], .list [.atom Keyword.quote.word, node']]) = .ok e ∧
        ∀ (env : Environment) (next : Nat), env.get? Primitive.eq.name = none →
          ∃ m, EndsWith e env next (.ok (.bool (decide
            (node.mapAtoms Numeral.canonical = node'.mapAtoms Numeral.canonical))) m) := by
  have hdatum := datum_ofQuoted_eq h
  have hdatum' := datum_ofQuoted_eq h'
  have hequal (next next' : Nat) :
      ((Datum.ofSExpr node).place next).1.isEqual ((Datum.ofSExpr node').place next').1 = true ↔
        node.mapAtoms Numeral.canonical = node'.mapAtoms Numeral.canonical := by
    rw [Datum.isEqual_place, Datum.ofSExpr_eq_iff]
  refine ⟨⟨_, _, hdatum, hdatum', hequal⟩, _,
    build_eq_ok_iff.2 (.app (by decide) .atom (.cons .quote (.cons .quote .nil))),
    fun env next hfree => ?_⟩
  have hname : Numeral.read Primitive.eq.name = .ok none := rfl
  have hhead : Evaluates (.literal Primitive.eq.name) env next (.ok (.primitive .eq) next) :=
    .literal (.primitive ⟨lacks_iff.2 hfree, hname⟩ rfl)
  have hfirst : Evaluates (.quote (.ofQuoted node)) env next _ := .quote hdatum
  have hrun := Evaluates.app hhead (.two hfirst (.quote hdatum')) (.primitive .eq)
  rw [Bool.eq_iff_iff.2 ((hequal _ _).trans (decide_eq_true_iff).symm)] at hrun
  exact ⟨_, hrun.endsWith⟩

/-- Two quotations that differ only in how they write integers, and one with another tree of the same
atoms. -/
theorem quotations_of_lists_with_integers :
    let node : SExpr := .list [.atom "a", .list [.atom "+07", .list []], .atom "-0"]
    let same : SExpr := .list [.atom "a", .list [.atom "7", .list []], .atom "00"]
    let other : SExpr := .list [.atom "a", .list [.atom "7", .list [], .atom "0"]]
    (∃ d d', (Expr.ofQuoted node).datum .unlimited = .ok d ∧
      (Expr.ofQuoted same).datum .unlimited = .ok d' ∧
      (d.place 0).1.isEqual (d'.place 5).1 = true) ∧
      (∃ d d', (Expr.ofQuoted node).datum .unlimited = .ok d ∧
        (Expr.ofQuoted other).datum .unlimited = .ok d' ∧
        (d.place 0).1.isEqual (d'.place 5).1 = false) ∧
      ∃ e m, Expr.build .unlimited (.list [.atom "eq?", .list [.atom "quote", node],
          .list [.atom "quote", same]]) = .ok e ∧ EndsWith e [] 0 (.ok (.bool true) m) := by
  intro node same other
  have hnode : node.NumeralsWithinLimit := by decide
  have hsame : same.NumeralsWithinLimit := by decide
  have hother : other.NumeralsWithinLimit := by decide
  have hone : node.mapAtoms Numeral.canonical = same.mapAtoms Numeral.canonical := by decide
  have htwo : node.mapAtoms Numeral.canonical ≠ other.mapAtoms Numeral.canonical := by decide
  obtain ⟨⟨d, d', hd, hd', hequal⟩, e, hbuild, hends⟩ := equality_of_quotations hnode hsame
  obtain ⟨⟨f, f', hf, hf', hdiffer⟩, -⟩ := equality_of_quotations hnode hother
  obtain ⟨m, hrun⟩ := hends [] 0 rfl
  rw [decide_eq_true hone] at hrun
  exact ⟨⟨d, d', hd, hd', (hequal 0 5).2 hone⟩,
    ⟨f, f', hf, hf', Bool.eq_false_iff.2 (mt (hdiffer 0 5).1 htwo)⟩, e, m, hbuild, hrun⟩

end MiniLisp
