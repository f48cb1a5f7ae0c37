import MiniLisp.Proofs.Building.Nesting
import MiniLisp.Proofs.Interpreter.RecursionLimit
import MiniLisp.Proofs.Quoting.QuotedForms
import MiniLisp.Proofs.Reading.SourceTexts

/-!
Frames and the nesting of a text. How deep its brackets are nested decides whether frames run out while a
text is built and quoted, and the lengths of its lists do not (`only_nesting_exhausts_frames`).
-/

namespace MiniLisp

section

variable {limit : Int} {env : Environment} {code : String} {node : SExpr} {next : Nat}

theorem Source.buildIn_of_read (hread : (Source.text code).read = .ok node) (room : Headroom) :
    (Source.text code).buildIn room = Expr.build room node := by
  unfold Source.buildIn
  rw [hread]
  rfl

/-- A quoted datum is evaluated two frames further down. -/
theorem eval_ofQuoted {datum : SExpr} (hlimit : datum.NumeralsWithinLimit) {frames : Nat}
    (h : datum.quotedFrames + 2 ≤ frames) (env : Environment) (next : Nat) :
    eval frames (.quote (.ofQuoted datum)) env next =
      .ok ((Datum.ofSExpr datum).place next).1 ((Datum.ofSExpr datum).place next).2 := by
  obtain ⟨n, rfl⟩ : ∃ n, frames = n + 1 := ⟨frames - 1, by omega⟩
  have hfits : (Expr.ofQuoted datum).datum (.frames (n - 1)) = (Expr.ofQuoted datum).datum .unlimited :=
    Expr.datum_ofQuoted_fits datum (by omega)
  rw [eval_quote, hfits, Expr.datum_ofQuoted_eq hlimit, EvalM.bind_run_ok (EvalM.lift_ok_run _ _)]
  rfl

theorem answerUnder_quote {datum : SExpr}
    (hread : (Source.text code).read = .ok (.list [.atom Keyword.quote.word, datum]))
    (hlimit : datum.NumeralsWithinLimit) (h : datum.quotedFrames + 2 ≤ framesUnder limit) :
    answerUnder limit env code next =
      (.ok ((Datum.ofSExpr datum).place next).1, ((Datum.ofSExpr datum).place next).2) := by
  -- The datum is two frames down when it is built, and again when it is evaluated.
  have hquoted : Expr.buildQuoted (.frames (framesUnder limit - 2)) datum = .ok (.ofQuoted datum) :=
    Expr.buildQuoted_fits (by omega)
  have hbuild : (Source.text code).buildIn (.frames (framesUnder limit)) =
      .ok (.quote (.ofQuoted datum)) := by
    have hpos : (Headroom.frames (framesUnder limit)).enter = .ok () := Fits.enter (by omega)
    have hkeyword : Keyword.ofHead? (.atom Keyword.quote.word) = some .quote := by decide
    rw [Source.buildIn_of_read hread, Expr.build_form _ hkeyword, hpos]
    show Expr.quote <$> Expr.buildQuoted (.frames (framesUnder limit - 2)) datum = _
    rw [hquoted]
    rfl
  rw [answerUnder_eq, runText, hbuild, EvalM.bind_run_ok (EvalM.lift_ok_run _ _), eval_ofQuoted hlimit h]
  rfl

theorem isTooDeep_of_nested (hread : (Source.text code).read = .ok node) {e : Expr}
    (hbuild : (Source.text code).build = .ok e) (h : framesUnder limit < node.depth) :
    IsTooDeep code (answerUnder limit env code next).1 := by
  refine (finished_or_isTooDeep limit env code next).resolve_left fun hfinished => ?_
  -- A run that ends within its frames has built the expression within them.
  unfold runText at hfinished
  rw [EvalM.bind_run, Source.buildIn_of_read hread] at hfinished
  rcases (Expr.build_graded node).keeps (Headroom.noLarger_unlimited (.frames (framesUnder limit)))
    with hout | hsame
  · rw [hout] at hfinished
    exact hfinished rfl
  · have hunlimited : Expr.build .unlimited node = .ok e :=
      (Source.buildIn_of_read hread .unlimited).symm.trans hbuild
    have hdepth := Expr.depth_le_of_build node (hsame.symm.trans hunlimited)
    omega

/-- Let a text hold one S-expression whose brackets are nested `depth` deep. With at least `2 * depth + 1`
frames, building it comes to what it comes to without a limit, and so does not exhaust the frames, however
many elements its lists have. If it quotes one datum, in which no numeral has more digits than are read, then
a run with so many frames answers that datum. With fewer frames than `depth`, a text that can be built without a
limit is too deep. -/
theorem only_nesting_exhausts_frames (limit : Int) (env : Environment) (next : Nat)
    (hread : (Source.text code).read = .ok node) :
    (∀ frames, 2 * node.depth + 1 ≤ frames →
      (Source.text code).buildIn (.frames frames) = (Source.text code).build ∧
      (Source.text code).buildIn (.frames frames) ≠ .error .outOfFrames) ∧
    (∀ datum, node = .list [.atom Keyword.quote.word, datum] → node.NumeralsWithinLimit →
      2 * node.depth + 1 ≤ framesUnder limit →
      answerUnder limit env code next =
        (.ok ((Datum.ofSExpr datum).place next).1, ((Datum.ofSExpr datum).place next).2)) ∧
    (∀ e, (Source.text code).build = .ok e → framesUnder limit + 1 ≤ node.depth →
      IsTooDeep code (answerUnder limit env code next).1) := by
  refine ⟨fun frames h => ?_, fun datum hnode hlimit h => ?_, fun e hbuild h => ?_⟩
  · have hfits : Expr.build (.frames frames) node = Expr.build .unlimited node :=
      Expr.build_fits node h
    have hsame : (Source.text code).buildIn (.frames frames) = (Source.text code).build := by
      rw [Source.buildIn_of_read hread, hfits]
      exact (Source.buildIn_of_read hread .unlimited).symm
    exact ⟨hsame, hsame ▸ (Source.buildIn_graded code).finishes⟩
  · have hquoted := datum.quotedFrames_le
    have hdatum : datum.NumeralsWithinLimit := by
      intro text htext
      refine hlimit text ?_
      rw [hnode]
      simp [SExpr.atoms, SExpr.atomsOf, htext]
    rw [hnode] at h hread
    simp only [SExpr.depth, SExpr.depthOf] at h
    exact answerUnder_quote hread hdatum (by omega)
  · exact isTooDeep_of_nested hread hbuild h

end

/-- An atom with so many brackets around it. -/
def SExpr.tower : Nat → SExpr
  | 0 => .atom "f"
  | height + 1 => .list [tower height]

namespace SExpr

theorem depth_tower (height : Nat) : (tower height).depth = height := by
  induction height with
  | zero => rfl
  | succ height ih =>
    simp only [tower, depth, depthOf, ih]
    omega

theorem isReadable_tower (height : Nat) : (tower height).IsReadable := by
  induction height with
  | zero =>
    intro token htoken
    rw [List.mem_singleton.1 htoken]
    decide
  | succ height ih =>
    intro token htoken
    simp only [tower, atoms, atomsOf, List.append_nil] at htoken
    exact ih token htoken

theorem build_tower (height : Nat) : ∃ e, Expr.build .unlimited (tower height) = .ok e := by
  induction height with
  | zero => exact ⟨.literal "f", by rw [tower, Expr.build_atom]; rfl⟩
  | succ height ih =>
    obtain ⟨func, hfunc⟩ := ih
    have hkeyword : Keyword.ofHead? (tower height) = none := by
      cases height with
      | zero => decide
      | succ height => rfl
    have hargs : Expr.buildAll .unlimited [] = .ok [] := by rw [Expr.buildAll]
    refine ⟨.app func [], ?_⟩
    rw [tower, Expr.build_unlimited_application hkeyword, hfunc, hargs]
    rfl

end SExpr

/-- A quoted list comes back as data, and one pair of brackets more than there are frames is too deep. -/
theorem nesting_of_two_texts :
    let quoted : SExpr := .list [.atom "quote", .list [.atom "a", .list [.atom "+07"], .atom "b"]]
    let tower := SExpr.tower 1001
    (Source.text "(quote (a (+07) b))").read = .ok quoted ∧ quoted.depth = 3 ∧
      answerUnder 0 [] "(quote (a (+07) b))" 5 =
        (.ok (.pair 8 (.symbol "a") (.pair 7 (.pair 5 (.int 7) .nil) (.pair 6 (.symbol "b") .nil))), 9) ∧
      (Source.text tower.source).read = .ok tower ∧ tower.depth = 1001 ∧
      (Source.text tower.source).buildIn (.frames 2003) ≠ .error .outOfFrames ∧
      IsTooDeep tower.source (answerUnder 1000 [] tower.source 5).1 := by
  intro quoted tower
  have hread : (Source.text "(quote (a (+07) b))").read = .ok quoted := by rfl
  have hdepth : tower.depth = 1001 := SExpr.depth_tower 1001
  have htower : (Source.text tower.source).read = .ok tower :=
    Source.read_source (SExpr.isReadable_tower 1001)
  obtain ⟨e, hbuild⟩ := SExpr.build_tower 1001
  have hbuilt : (Source.text tower.source).build = .ok e :=
    (Source.buildIn_of_read htower .unlimited).trans hbuild
  obtain ⟨-, hquoted, -⟩ := only_nesting_exhausts_frames 0 [] 5 hread
  obtain ⟨hbuilds, -, htooDeep⟩ := only_nesting_exhausts_frames 1000 [] 5 htower
  have hvalue := hquoted _ rfl (by decide) (by decide)
  have hframes : framesUnder 1000 = 1000 := by decide
  refine ⟨hread, by decide, hvalue, htower, hdepth, (hbuilds 2003 ?_).2, htooDeep e hbuilt ?_⟩
  · omega
  · omega

end MiniLisp
