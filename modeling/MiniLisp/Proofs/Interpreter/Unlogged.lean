import MiniLisp.Interpreter
import MiniLisp.Proofs.Evaluation.Computation
import MiniLisp.Source

/-!
Runs of the interpreter without their log. What a run answers does not depend on what it logs: it is the
answer of reading, building and evaluating alone (`Interpreter.eval_eq`).
-/

namespace MiniLisp

variable {α β : Type}

/-! ## Logging computations -/

/-- What a computation comes to, with the log left out. -/
def unlogged : EStateM.Result Fault Progress α → Outcome α
  | .ok a p => .ok a p.nextCell
  | .error fault p => .error fault p.nextCell

/-- After any log the first computation comes to what the second does, but for the log. -/
def Logs (run : RunM α) (act : EvalM α) : Prop :=
  ∀ p : Progress, unlogged (run p) = act p.nextCell

namespace Logs

theorem pure (a : α) : Logs (Pure.pure a) (Pure.pure a) :=
  fun _ => rfl

theorem lift (r : Except Fault α) : Logs (liftM r) (liftM r) := by
  intro p
  cases r <;> rfl

theorem liftEval (act : EvalM α) : Logs (liftM act) act := by
  intro p
  cases hact : act p.nextCell <;>
    simp only [liftM, monadLift, MonadLift.monadLift, hact, unlogged]

theorem bind {run : RunM α} {act : EvalM α} {runRest : α → RunM β} {actRest : α → EvalM β}
    (h : Logs run act) (hrest : ∀ a, Logs (runRest a) (actRest a)) :
    Logs (run >>= runRest) (act >>= actRest) := by
  intro p
  show unlogged (EStateM.bind run runRest p) = _
  rw [EvalM.bind_run, ← h p, EStateM.bind]
  cases run p with
  | ok a q => exact hrest a q
  | error fault q => rfl

theorem afterLog {run : RunM α} {act : EvalM α} (event : Event) (h : Logs run act) :
    Logs (RunM.log event >>= fun _ => run) act :=
  fun p => h ⟨p.events ++ [event], p.nextCell⟩

theorem beforeLog {event : α → Event} {run : RunM α} {act : EvalM α} (h : Logs run act) :
    Logs (run >>= fun a => RunM.log (event a) >>= fun _ => Pure.pure a) act := by
  have hbind := h.bind fun a => (pure a).afterLog (event a)
  rwa [bind_pure] at hbind

end Logs

theorem EvalM.lift_bind (r : Except Fault α) (rest : α → Except Fault β) :
    (liftM (r >>= rest) : EvalM β) = liftM r >>= fun a => liftM (rest a) := by
  funext next
  cases r <;> rfl

/-! ## Stages -/

/-- The expression of a program that is built in that headroom. -/
def Source.buildIn (room : Headroom) (source : Source) : Except Fault Expr :=
  source.read >>= Expr.build room

namespace RunM

theorem read_logs (code : String) : Logs (read code) (liftM (Source.text code).read) := by
  rw [Source.read, SExpr.oneOfTokens, EvalM.lift_bind]
  refine .afterLog _ (.bind (.lift _) fun nodes => .afterLog _ ?_)
  exact (Logs.lift (SExpr.single nodes)).beforeLog

theorem build_logs (room : Headroom) (code : String) :
    Logs (build room code) (liftM ((Source.text code).buildIn room)) := by
  rw [Source.buildIn, EvalM.lift_bind]
  refine .bind (read_logs code) fun node => ?_
  exact (Logs.lift (Expr.build room node)).beforeLog

end RunM

/-- Reads, builds and evaluates a text, and logs nothing. -/
def runText (frames : Nat) (env : Environment) (code : String) : EvalM Value := do
  let e ← liftM ((Source.text code).buildIn (.frames frames))
  eval frames e env

theorem RunM.eval_logs (frames : Nat) (env : Environment) (code : String) :
    Logs (RunM.eval frames env code) (runText frames env code) := by
  rw [runText, ← bind_pure (do let e ← _; _ : EvalM Value), bind_assoc]
  -- After evaluation only the line for the result is left.
  refine .bind (build_logs _ code) fun e => .bind (.liftEval _) fun v => ?_
  cases v.debugForm with
  | ok shown => exact (Logs.pure v).afterLog _
  | error limit => exact .pure v

/-! ## Answers -/

namespace Interpreter

/-- What the interpreter answers to a text whose run comes to that, and the next free cell. -/
def answerOf (code : String) : Outcome Value → Except Fault Value × Nat
  | .ok v next => (.ok v, next)
  | .error .outOfFrames next => (.error (.tooDeep (excerpt code)), next)
  | .error fault next => (.error fault, next)

theorem answerOf_error {fault : Fault} (h : fault ≠ .outOfFrames) (code : String) (next : Nat) :
    answerOf code (.error fault next) = (.error fault, next) := by
  cases fault <;> first | rfl | exact absurd rfl h

/-- The answer to a text is that of reading, building and evaluating it. -/
theorem eval_eq (interp : Interpreter) (code : String) (next : Nat) :
    interp.eval code next = answerOf code (runText interp.frames interp.env code next) := by
  have hlogs := RunM.eval_logs interp.frames interp.env code ⟨[], next⟩
  have htrace : interp.eval code next =
      ((interp.trace code next).1.2, (interp.trace code next).2) := rfl
  rw [← hlogs, htrace, trace]
  cases RunM.eval interp.frames interp.env code ⟨[], next⟩ with
  | ok v p => rfl
  | error fault p => cases fault <;> rfl

end Interpreter

end MiniLisp
