import MiniLisp.Proofs.Evaluation.Headroom

/-!
More frames keep an outcome: whatever evaluation comes to with some frames, other than running out of
them, it comes to with more frames as well (`eval_keeps`).
-/

namespace MiniLisp

variable {α β : Type}

/-- The second computation comes to the same as the first, unless the first runs out of frames. -/
def KeepsRun (first second : EvalM α) : Prop :=
  ∀ next, (∃ m, first next = .error .outOfFrames m) ∨ second next = first next

namespace KeepsRun

theorem refl (act : EvalM α) : KeepsRun act act :=
  fun _ => .inr rfl

theorem outOfFrames (act : EvalM α) : KeepsRun (throw .outOfFrames) act :=
  fun next => .inl ⟨next, rfl⟩

theorem lift {step : Headroom → Except Fault α} (h : Graded step) {room other : Headroom}
    (hroom : room.NoLarger other) : KeepsRun (liftM (step room)) (liftM (step other)) := by
  rcases h.keeps hroom with hout | hsame
  · rw [hout]
    exact outOfFrames _
  · rw [hsame]
    exact refl _

theorem bind {first second : EvalM α} {rest other : α → EvalM β} (h : KeepsRun first second)
    (hrest : ∀ a, KeepsRun (rest a) (other a)) :
    KeepsRun (first >>= rest) (second >>= other) := by
  intro next
  rcases h next with ⟨m, hfirst⟩ | hfirst
  · exact .inl ⟨m, EvalM.bind_run_error hfirst⟩
  · rw [EvalM.bind_run, EvalM.bind_run, hfirst]
    cases first next with
    | ok a m => exact hrest a m
    | error fault m => exact .inr rfl

theorem mapM {f g : α → EvalM β} (h : ∀ a, KeepsRun (f a) (g a)) (items : List α) :
    KeepsRun (items.mapM f) (items.mapM g) := by
  induction items with
  | nil => exact refl _
  | cons item items ih =>
    rw [List.mapM_cons, List.mapM_cons]
    exact bind (h item) fun _ => bind ih fun _ => refl _

theorem report {room other : Headroom} (h : room.NoLarger other) (needed : Nat) (fault : Fault) :
    KeepsRun (throw (room.report needed fault) : EvalM α) (throw (other.report needed fault)) := by
  unfold Headroom.report
  by_cases hroom : room.holds needed = true
  · rw [if_pos hroom, if_pos (h needed hroom)]
    exact refl _
  · rw [if_neg hroom]
    exact outOfFrames _

end KeepsRun

section

variable {frames more : Nat} (h : frames ≤ more)
include h

theorem Primitive.call_keeps (op : Primitive) (args : List Value) :
    KeepsRun (op.call frames args) (op.call more args) := by
  have hroom := Headroom.noLarger_frames h
  induction op, args using Primitive.callCases with
  | cons => exact .refl _
  | cdr => exact .refl _
  | notPair v other =>
    rw [call_cdr_other _ other, call_cdr_other _ other]
    exact .report hroom _ _
  | eq a b =>
    rw [call_eq, call_eq]
    by_cases hab : a.comparisonFrames b ≤ frames
    · rw [if_pos hab, if_pos (Nat.le_trans hab h)]
      exact .refl _
    · rw [if_neg hab]
      exact .outOfFrames _
  | test op f v hf =>
    rw [call_test _ hf, call_test _ hf]
    exact .refl _
  | number op f n hf =>
    rw [call_number _ hf, call_number _ hf]
    exact .refl _
  | notNumber op f v hf other =>
    rw [call_notNumber _ hf other, call_notNumber _ hf other]
    exact .report hroom _ _
  | count op args hcount =>
    rw [call_count _ hcount, call_count _ hcount]
    exact .refl _

theorem evalBranches_keeps (hpart : ∀ e env, KeepsRun (evalPart frames e env) (evalPart more e env))
    (whole : List (Expr × Expr)) (env : Environment) (rest : List (Expr × Expr)) :
    KeepsRun (evalBranches frames whole env rest) (evalBranches more whole env rest) := by
  induction rest with
  | nil => exact .report (Headroom.noLarger_frames h) _ _
  | cons b rest ih =>
    rw [evalBranches, evalBranches]
    refine .bind (hpart b.1 env) fun v => ?_
    by_cases hv : v.isTrue = true
    · rw [if_pos hv, if_pos hv]
      exact hpart b.2 env
    · rw [if_neg hv, if_neg hv]
      exact ih

end

/-- What evaluation comes to with some frames, it comes to with more. -/
def KeptWith (frames more : Nat) : Prop :=
  (∀ e env, KeepsRun (eval frames e env) (eval more e env)) ∧
    (∀ e env, KeepsRun (evalPart frames e env) (evalPart more e env)) ∧
    ∀ callee args, KeepsRun (apply frames callee args) (apply more callee args)

theorem eval_succ_keeps {frames more : Nat} (h : frames ≤ more) (ih : KeptWith frames more)
    (e : Expr) (env : Environment) :
    KeepsRun (eval (frames + 1) e env) (eval (more + 1) e env) := by
  obtain ⟨heval, hpart, happly⟩ := ih
  cases e with
  | literal text => rw [eval_literal, eval_literal]; exact .refl _
  | identifier name => rw [eval_identifier, eval_identifier]; exact .refl _
  | quote d =>
    rw [eval_quote, eval_quote]
    have hroom := Headroom.noLarger_frames (Nat.sub_le_sub_right h 1)
    exact .bind (.lift (Expr.datum_graded d) hroom) fun _ => .refl _
  | branch question answer =>
    rw [eval_branch, eval_branch]
    exact .report (Headroom.noLarger_frames h) _ _
  | cond branches =>
    rw [eval_cond, eval_cond]
    exact evalBranches_keeps h hpart branches env branches
  | lambda params body => rw [eval_lambda, eval_lambda]; exact .refl _
  | app func args =>
    rw [eval_app, eval_app]
    refine .bind (heval func env) fun head => ?_
    exact .bind (.mapM (fun arg => hpart arg env) args) fun values => happly head values
  | empty => rw [eval_empty, eval_empty]; exact .refl _

theorem apply_succ_keeps {frames more : Nat} (h : frames ≤ more) (ih : KeptWith frames more)
    (callee : Value) (args : List Value) :
    KeepsRun (apply (frames + 1) callee args) (apply (more + 1) callee args) := by
  cases callee with
  | primitive op =>
    rw [apply_primitive, apply_primitive]
    exact Primitive.call_keeps h op args
  | closure cell params body env =>
    rw [apply_closure, apply_closure]
    exact .bind (.refl _) fun scope => ih.2.1 body scope
  | _ =>
    rw [apply_uncallable _ rfl, apply_uncallable _ rfl]
    exact .report (Headroom.noLarger_frames h) _ _

theorem keptWith_of_le {frames more : Nat} (h : frames ≤ more) : KeptWith frames more := by
  -- Without a frame every run runs out; with one more on both sides, both take the same step.
  induction frames generalizing more with
  | zero =>
    refine ⟨fun e env => ?_, fun e env => ?_, fun callee args => ?_⟩
    · rw [eval_zero]; exact .outOfFrames _
    · rw [evalPart_zero]; exact .outOfFrames _
    · rw [apply_zero]; exact .outOfFrames _
  | succ frames ih =>
    obtain ⟨more, rfl⟩ : ∃ k, more = k + 1 := ⟨more - 1, by omega⟩
    have hle : frames ≤ more := by omega
    refine ⟨eval_succ_keeps hle (ih hle), fun e env => ?_, apply_succ_keeps hle (ih hle)⟩
    rw [evalPart_succ, evalPart_succ]
    exact (ih hle).1 e env

/-- With more frames an evaluation comes to the same, unless it ran out of them. -/
theorem eval_keeps {frames more : Nat} (h : frames ≤ more) (e : Expr) (env : Environment) :
    KeepsRun (eval frames e env) (eval more e env) :=
  (keptWith_of_le h).1 e env

end MiniLisp
