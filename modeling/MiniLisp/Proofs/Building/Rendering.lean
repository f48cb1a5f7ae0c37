import MiniLisp.Proofs.Building.CanonicalTrees
import MiniLisp.Proofs.Interpreter.RecursionLimit
import MiniLisp.Proofs.Reading.SourceTexts

/-!
Rendering undoes building. The source text of an expression is that of the S-expression that it was built
from, and a text that was read and built may be replaced by the source of its expression.
-/

namespace MiniLisp

namespace Expr

/-- The source of an expression is that of its spelling. -/
theorem source_spelling (e : Expr) : e.spelling.source = e.source := by
  induction e with
  | literal text => rw [spelling, SExpr.source_atom, source]
  | identifier name => rw [spelling, SExpr.source_atom, source]
  | quote datum ih =>
    have hword : "(quote " = "(" ++ Keyword.quote.word ++ " " := rfl
    rw [spelling, SExpr.source_list, source, hword, ← ih]
    simp [String.append_assoc]
  | branch question answer ihq iha =>
    rw [spelling, SExpr.source_list, source, ← ihq, ← iha]
    simp [String.append_assoc]
  | cond branches ih =>
    have hclauses : (branchSpellings branches).map SExpr.source = branchSources branches := by
      rw [branchSpellings_eq_map, branchSources_eq_map, List.map_map]
      refine List.map_congr_left fun b hb => ?_
      simp [← (ih b hb).1, ← (ih b hb).2, String.append_assoc]
    rw [spelling, SExpr.source_list, source, List.map_cons, hclauses, SExpr.source_atom]
    rfl
  | lambda params body ih =>
    have hparams : (params.map SExpr.atom).map SExpr.source = params := by
      rw [List.map_map]
      exact (List.map_congr_left fun name _ => SExpr.source_atom name).trans (List.map_id params)
    rw [spelling, SExpr.source_list, source, ← ih]
    -- As characters both sides fall into the same pieces.
    refine String.toList_inj.1 ?_
    simp [hparams, Keyword.word]
  | app func args ihfunc ihargs =>
    have hargs : (spellings args).map SExpr.source = sources args := by
      rw [spellings_eq_map, sources_eq_map, List.map_map]
      exact List.map_congr_left ihargs
    rw [spelling, SExpr.source_list, source, List.map_cons, hargs, ihfunc]
  | empty => rw [spelling, SExpr.source_list, source]; rfl

theorem source_of_build {room : Headroom} {node : SExpr} {e : Expr} (h : build room node = .ok e) :
    e.source = node.source := by
  have hunlimited := (build_graded node).eq_unlimited room (by rw [h]; simp)
  rw [(build_eq_ok_iff_spelling.1 (hunlimited.trans h)).2, source_spelling]

end Expr

/-- The source of the expression of a text is read as the text is. -/
theorem Source.read_rendered {text : String} {e : Expr} (h : (Source.text text).build = .ok e) :
    (Source.text e.source).read = (Source.text text).read := by
  obtain ⟨node, hread, hbuild⟩ := bind_eq_ok_iff.1 h
  -- What was read has only atoms that texts can write, so its source can be read as well.
  rw [Expr.source_of_build hbuild, Source.read_source (Source.read_text_eq_ok_iff.1 hread).2, hread]

theorem Source.buildIn_rendered {text : String} {e : Expr} (h : (Source.text text).build = .ok e)
    (room : Headroom) : (Source.text e.source).buildIn room = (Source.text text).buildIn room := by
  rw [Source.buildIn, Source.buildIn, Source.read_rendered h]

theorem ComesTo.congr {env : Environment} {text other : String} {next m : Nat}
    {result : Except Fault Value} (hbuild : (Source.text other).build = (Source.text text).build)
    (h : ComesTo env text next result m) : ComesTo env other next result m := by
  cases h with
  | unbuilt h => exact .unbuilt (hbuild.trans h)
  | value h heval => exact .value (hbuild.trans h) heval
  | fails h heval => exact .fails (hbuild.trans h) heval

/-- The source of an expression is that of the S-expression that it was built from. So the source of the
expression of a text is read and built as that expression again, different expressions of texts have
different sources, and text and source come to the same, within any number of frames and without a
limit. -/
theorem rendering_undoes_building :
    (∀ room node e, Expr.build room node = .ok e → e.source = node.source) ∧
      (∀ text e, (Source.text text).build = .ok e →
        (Source.text e.source).build = .ok e ∧
        (∀ frames env next, runText frames env e.source next = runText frames env text next) ∧
        ∀ env next result m, ComesTo env e.source next result m ↔ ComesTo env text next result m) ∧
      ∀ text text' e e', (Source.text text).build = .ok e → (Source.text text').build = .ok e' →
        e.source = e'.source → e = e' := by
  refine ⟨fun room node e h => Expr.source_of_build h, fun text e h => ?_,
    fun text text' e e' h h' hsource => ?_⟩
  · have hbuild : (Source.text e.source).build = (Source.text text).build :=
      Source.buildIn_rendered h .unlimited
    refine ⟨hbuild.trans h, fun frames env next => ?_, fun env next result m => ?_⟩
    · rw [runText, runText, Source.buildIn_rendered h]
    · exact ⟨ComesTo.congr hbuild.symm, ComesTo.congr hbuild⟩
  · have hbuild := (Source.buildIn_rendered h .unlimited).trans h
    have hbuild' := (Source.buildIn_rendered h' .unlimited).trans h'
    rw [← hsource] at hbuild'
    exact Except.ok.inj (hbuild.symm.trans hbuild')

/-- A text with white space of all kinds and a quoted special form. -/
abbrev spreadText : String :=
  "((lambda (x)\n  (cond ((null? x) (quote\t()))(else(quote ( quote a )))))\r 1)"

/-- The source of the expression of `spreadText` is another text, and is read, built and run as it is. -/
theorem source_of_spread_text :
    let e : Expr := .app (.lambda ["x"] (.cond
      [(.app (.literal "null?") [.literal "x"], .quote .empty),
        (.literal "else", .quote (.app (.literal "quote") [.literal "a"]))])) [.literal "1"]
    let rendered := "((lambda (x) (cond ((null? x) (quote ())) (else (quote (quote a))))) 1)"
    (Source.text spreadText).build = .ok e ∧ e.source = rendered ∧
      (Source.text rendered).build = .ok e ∧
      ∀ frames env next, runText frames env rendered next = runText frames env spreadText next := by
  intro e rendered
  have hread : (Source.text spreadText).read = .ok (.list
      [.list [.atom "lambda", .list [.atom "x"], .list [.atom "cond",
        .list [.list [.atom "null?", .atom "x"], .list [.atom "quote", .list []]],
        .list [.atom "else", .list [.atom "quote", .list [.atom "quote", .atom "a"]]]]],
        .atom "1"]) := by rfl
  have hbuild : (Source.text spreadText).build = .ok e := bind_eq_ok_iff.2 ⟨_, hread, by cbv⟩
  have hsource : e.source = rendered := by cbv
  obtain ⟨-, htexts, -⟩ := rendering_undoes_building
  obtain ⟨hrendered, hruns, -⟩ := htexts spreadText e hbuild
  rw [hsource] at hrendered hruns
  exact ⟨hbuild, hsource, hrendered, hruns⟩

end MiniLisp
