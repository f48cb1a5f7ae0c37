import MiniLisp.Proofs.Evaluation.Agreement

/-!
Last steps. The last thing that an application does is to call its head, a call of a closure evaluates the
body of the closure last, and a conditional the answer that it selects. So one task leads to another: it
ends as the other does, and each finished run of it has a finished run of the other in it, with fewer
frames. Tasks that lead to each other for ever do not end (`Task.never_ends`).
-/

namespace MiniLisp

/-- An expression to evaluate, or a call to make, from a counter of cells on. -/
inductive Task where
  | eval (e : Expr) (env : Environment) (next : Nat)
  | apply (callee : Value) (args : List Value) (next : Nat)

namespace Task

/-- The run of the task with so many frames. -/
def run (frames : Nat) : Task → Outcome Value
  | .eval e env next => MiniLisp.eval frames e env next
  | .apply callee args next => MiniLisp.apply frames callee args next

/-- The task ends with the outcome, by the rules of the language. -/
def EndsIn (o : Outcome Value) : Task → Prop
  | .eval e env next => Evaluates e env next o
  | .apply callee args next => Applies callee args next o

/-- The second task is the last step of the first. -/
structure LeadsTo (t t' : Task) : Prop where
  ends {o : Outcome Value} (h : t'.EndsIn o) : t.EndsIn o
  descends {frames : Nat} (h : Finished (t.run frames)) : ∃ less < frames, Finished (t'.run less)

theorem LeadsTo.trans {t t' t'' : Task} (h : t.LeadsTo t') (h' : t'.LeadsTo t'') : t.LeadsTo t'' where
  ends hends := h.ends (h'.ends hends)
  descends hfinished := by
    obtain ⟨less, hless, hfinished⟩ := h.descends hfinished
    obtain ⟨least, hleast, hfinished⟩ := h'.descends hfinished
    exact ⟨least, hleast.trans hless, hfinished⟩

/-! ## Tasks that do not end -/

theorem exists_finished_run {t : Task} {o : Outcome Value} (h : t.EndsIn o) :
    ∃ frames, Finished (t.run frames) := by
  cases t with
  | eval e env next =>
    have hends : EndsWith e env next o := Evaluates.endsWith h
    obtain ⟨frames, hframes⟩ := hends.eventually.exists
    refine ⟨frames, show Finished (MiniLisp.eval frames e env next) from ?_⟩
    rw [hframes]
    exact hends.finished
  | apply callee args next =>
    have hends := Applies.settles h
    obtain ⟨frames, hframes⟩ := hends.eventually.exists
    refine ⟨frames, show Finished (MiniLisp.apply frames callee args next) from ?_⟩
    rw [hframes]
    exact hends.finished

/-- If each of some tasks leads to another of them, then none of them ends. -/
theorem never_ends {P : Task → Prop} (hstep : ∀ t, P t → ∃ t', P t' ∧ t.LeadsTo t') {t : Task}
    (ht : P t) (o : Outcome Value) : ¬ t.EndsIn o := by
  -- A finished run of one of them would have finished runs of others in it, with ever fewer frames.
  have hruns (frames : Nat) : ∀ t, P t → ¬ Finished (t.run frames) := by
    induction frames using Nat.strongRecOn with
    | ind frames ih =>
      intro t ht hfinished
      obtain ⟨t', ht', hleads⟩ := hstep t ht
      obtain ⟨less, hless, hfinished⟩ := hleads.descends hfinished
      exact ih less hless t' ht' hfinished
  intro hends
  obtain ⟨frames, hfinished⟩ := exists_finished_run hends
  exact hruns frames t ht hfinished

end Task

/-! ## Runs of parts -/

theorem Finished.of_bind {α β : Type} {act : EvalM α} {rest : α → EvalM β} {next : Nat}
    (h : Finished ((act >>= rest) next)) : Finished (act next) := by
  rw [EvalM.bind_run] at h
  cases hact : act next with
  | ok a m => trivial
  | error fault m =>
    rw [hact] at h
    exact h

theorem Evaluates.eval_eq {frames next : Nat} {e : Expr} {env : Environment} {o : Outcome Value}
    (h : Evaluates e env next o) (hfinished : Finished (eval frames e env next)) :
    eval frames e env next = o :=
  (endsWith_of_finished hfinished).unique h.endsWith

theorem Evaluates.evalPart_eq {frames next : Nat} {e : Expr} {env : Environment} {o : Outcome Value}
    (h : Evaluates e env next o) (hfinished : Finished (evalPart frames e env next)) :
    evalPart frames e env next = o :=
  ((derived frames).part e env next hfinished).endsWith.unique h.endsWith

theorem EvaluatesAll.mapM_eq {frames next : Nat} {args : List Expr} {env : Environment}
    {o : Outcome (List Value)} (h : EvaluatesAll args env next o)
    (hfinished : Finished (args.mapM (fun arg => evalPart frames arg env) next)) :
    args.mapM (fun arg => evalPart frames arg env) next = o :=
  ((derived frames).evaluatesAll args env next hfinished).settles.unique h.settles

theorem exists_less_of_evalPart {frames next : Nat} {e : Expr} {env : Environment}
    (h : Finished (evalPart frames e env next)) : ∃ less < frames, Finished (eval less e env next) := by
  cases frames with
  | zero =>
    rw [evalPart_zero] at h
    exact (h rfl).elim
  | succ frames =>
    rw [evalPart_succ] at h
    exact ⟨frames, Nat.lt_succ_self frames, h⟩

/-! ## Last steps -/

section

variable {env : Environment} {next m k : Nat}

/-- The last step of an application is the call of its head. -/
theorem leadsTo_apply {func : Expr} {args : List Expr} {head : Value} {values : List Value}
    (hfunc : Evaluates func env next (.ok head m)) (hargs : EvaluatesAll args env m (.ok values k)) :
    (Task.eval (.app func args) env next).LeadsTo (.apply head values k) where
  ends happly := .app hfunc hargs happly
  descends {frames} h := by
    cases frames with
    | zero => exact (h rfl).elim
    | succ frames =>
      have hrun : Finished (eval (frames + 1) (.app func args) env next) := h
      rw [eval_app] at hrun
      rw [EvalM.bind_run_ok (hfunc.eval_eq hrun.of_bind)] at hrun
      rw [EvalM.bind_run_ok (hargs.mapM_eq hrun.of_bind)] at hrun
      exact ⟨frames, Nat.lt_succ_self frames, hrun⟩

/-- The last step of a call is the evaluation of the body. -/
theorem leadsTo_body {cell : Nat} {params : List String} {body : Expr} {args : List Value}
    (count : args.length = params.length) :
    (Task.apply (.closure cell params body env) args next).LeadsTo
      (.eval body (env.extend (params.zip args)) next) where
  ends h := .closure count h
  descends {frames} h := by
    cases frames with
    | zero => exact (h rfl).elim
    | succ frames =>
      have hrun : Finished (apply (frames + 1) (.closure cell params body env) args next) := h
      rw [apply_closure, Environment.bindArgs, if_pos count,
        EvalM.bind_run_ok (EvalM.lift_ok_run _ _)] at hrun
      obtain ⟨less, hless, hfinished⟩ := exists_less_of_evalPart hrun
      exact ⟨less, Nat.lt_succ_of_lt hless, hfinished⟩

/-- The questions are answered up to that answer, which is evaluated from the counter in the last place. -/
inductive Selects (env : Environment) : List (Expr × Expr) → Nat → Expr → Nat → Prop
  | here {question answer : Expr} {rest : List (Expr × Expr)} {next m : Nat}
      (h : Evaluates question env next (.ok (.bool true) m)) :
      Selects env ((question, answer) :: rest) next answer m
  | later {question other answer : Expr} {rest : List (Expr × Expr)} {v : Value} {next m k : Nat}
      (h : Evaluates question env next (.ok v m)) (hother : v ≠ .bool true)
      (hrest : Selects env rest m answer k) : Selects env ((question, other) :: rest) next answer k

theorem Selects.chooses {rest : List (Expr × Expr)} {answer : Expr} (h : Selects env rest next answer m)
    (whole : List (Expr × Expr)) {o : Outcome Value} (hanswer : Evaluates answer env m o) :
    Chooses whole env rest next o := by
  induction h with
  | here h => exact .selected h hanswer
  | later h hother _ ih => exact .passed h hother (ih hanswer)

theorem Selects.descends {rest : List (Expr × Expr)} {answer : Expr}
    (h : Selects env rest next answer m) {frames : Nat} {whole : List (Expr × Expr)}
    (hrun : Finished (evalBranches frames whole env rest next)) :
    ∃ less < frames, Finished (eval less answer env m) := by
  induction h with
  | here h =>
    rw [evalBranches] at hrun
    rw [EvalM.bind_run_ok (h.evalPart_eq hrun.of_bind)] at hrun
    exact exists_less_of_evalPart hrun
  | later h hother _ ih =>
    rw [evalBranches] at hrun
    rw [EvalM.bind_run_ok (h.evalPart_eq hrun.of_bind),
      if_neg fun htrue => hother (Value.isTrue_iff.1 htrue)] at hrun
    exact ih hrun

/-- The last step of a conditional is the evaluation of the answer that it selects. -/
theorem leadsTo_answer {branches : List (Expr × Expr)} {answer : Expr}
    (h : Selects env branches next answer m) :
    (Task.eval (.cond branches) env next).LeadsTo (.eval answer env m) where
  ends hanswer := .cond (h.chooses branches hanswer)
  descends {frames} hrun := by
    cases frames with
    | zero => exact (hrun rfl).elim
    | succ frames =>
      have hrun : Finished (eval (frames + 1) (.cond branches) env next) := hrun
      rw [eval_cond] at hrun
      obtain ⟨less, hless, hfinished⟩ := h.descends hrun
      exact ⟨less, Nat.lt_succ_of_lt hless, hfinished⟩

end

end MiniLisp
