import MiniLisp.Proofs.Interpreter.Sessions

/-!
Watched runs. A watched run comes to what the run itself comes to (`watchEval_unwatched`,
`watchSession_unwatched`), and keeps besides which closures were made, one for each evaluation of a
lambda, and which values were met.
-/

namespace MiniLisp

/-! ## Records of runs -/

/-- A closure: the cell in which it was made, its parameters and body, and what it captured. -/
structure Closure where
  cell : Nat
  params : List String
  body : Expr
  env : Environment

/-- The closure as a value. -/
def Closure.value (k : Closure) : Value :=
  .closure k.cell k.params k.body k.env

/-- What is kept of a run so far: the next free cell, the closures that it made, in order, and the value of
each evaluation. Names are looked up and arguments found by evaluations, a pair stores arguments, and
what is taken out of a pair is the value of the call that does it. -/
structure Watch where
  nextCell : Nat
  made : List Closure
  met : List Value

namespace Watch

/-- Nothing has been run yet. -/
def start (next : Nat) : Watch :=
  ⟨next, [], []⟩

end Watch

/-- A computation that is watched. -/
abbrev WatchM := EStateM Fault Watch

namespace WatchM

instance : MonadLift EvalM WatchM where
  monadLift act w :=
    match act w.nextCell with
    | .ok a next => .ok a ⟨next, w.made, w.met⟩
    | .error fault next => .error fault ⟨next, w.made, w.met⟩

/-- Keeps a closure that was made. -/
def make (k : Closure) : WatchM Value :=
  modifyGet fun w => (k.value, ⟨w.nextCell, w.made ++ [k], w.met⟩)

/-- Keeps the value that an evaluation comes to. -/
def meet (act : WatchM Value) : WatchM Value := do
  let v ← act
  modify fun w => ⟨w.nextCell, w.made, w.met ++ [v]⟩
  pure v

variable {α : Type} {w : Watch}

theorem lift_run_ok {act : EvalM α} {a : α} {next : Nat} (h : act w.nextCell = .ok a next) :
    (liftM act : WatchM α) w = .ok a ⟨next, w.made, w.met⟩ := by
  simp only [liftM, monadLift, MonadLift.monadLift, h]

theorem lift_run_error {act : EvalM α} {fault : Fault} {next : Nat}
    (h : act w.nextCell = .error fault next) :
    (liftM act : WatchM α) w = .error fault ⟨next, w.made, w.met⟩ := by
  simp only [liftM, monadLift, MonadLift.monadLift, h]

end WatchM

/-! ## Watched evaluation -/

mutual

/-- Evaluates an expression and keeps its value. -/
def watchEval : (frames : Nat) → Expr → Environment → WatchM Value
  | 0, _, _ => throw .outOfFrames
  | frames + 1, e, env =>
    WatchM.meet <| match e with
      | .cond branches =>
        branches.foldr
          (fun (question, answer) others => do
            match ← watchPart frames question env with
            | .bool true => watchPart frames answer env
            | _ => others)
          (EvalM.noTrueQuestion frames branches)
      | .lambda params body => do
        let cell ← EvalM.freshCell
        WatchM.make ⟨cell, params, body, env⟩
      | .app func args => do
        let head ← watchEval frames func env
        let values ← args.mapM fun arg => watchPart frames arg env
        watchApply frames head values
      | other => eval (frames + 1) other env

/-- Evaluates an expression one frame further down. -/
def watchPart : (frames : Nat) → Expr → Environment → WatchM Value
  | 0, _, _ => throw .outOfFrames
  | frames + 1, e, env => watchEval frames e env

/-- Applies a value to arguments. -/
def watchApply : (frames : Nat) → Value → List Value → WatchM Value
  | 0, _, _ => throw .outOfFrames
  | frames + 1, callee, args =>
    match callee with
    | .closure _ params body env => do
      let scope ← Environment.bindArgs env params args
      watchPart frames body scope
    | other => apply (frames + 1) other args

end

/-- Evaluates the branches of a conditional that are left. -/
def watchBranches (frames : Nat) (whole : List (Expr × Expr)) (env : Environment) :
    List (Expr × Expr) → WatchM Value
  | [] => EvalM.noTrueQuestion frames whole
  | (question, answer) :: rest => do
    let v ← watchPart frames question env
    if v.isTrue then watchPart frames answer env else watchBranches frames whole env rest

theorem foldr_eq_watchBranches (frames : Nat) (whole rest : List (Expr × Expr)) (env : Environment) :
    rest.foldr
      (fun (question, answer) others => do
        match ← watchPart frames question env with
        | .bool true => watchPart frames answer env
        | _ => others)
      (liftM (EvalM.noTrueQuestion frames whole)) = watchBranches frames whole env rest := by
  induction rest with
  | nil => rfl
  | cons b rest ih =>
    rw [List.foldr_cons, ih, watchBranches]
    refine congrArg (watchPart frames b.1 env >>= ·) (funext fun v => ?_)
    cases v with
    | bool b => cases b <;> rfl
    | _ => rfl

theorem watchEval_cond (frames : Nat) (branches : List (Expr × Expr)) (env : Environment) :
    watchEval (frames + 1) (.cond branches) env =
      .meet (watchBranches frames branches env branches) := by
  rw [← foldr_eq_watchBranches]
  rfl

theorem watchEval_lambda (frames : Nat) (params : List String) (body : Expr) (env : Environment) :
    watchEval (frames + 1) (.lambda params body) env = .meet (do
      let cell ← liftM EvalM.freshCell
      WatchM.make ⟨cell, params, body, env⟩) := rfl

theorem watchEval_app (frames : Nat) (func : Expr) (args : List Expr) (env : Environment) :
    watchEval (frames + 1) (.app func args) env = .meet (do
      let head ← watchEval frames func env
      let values ← args.mapM fun arg => watchPart frames arg env
      watchApply frames head values) := rfl

theorem watchApply_closure (frames cell : Nat) (params : List String) (body : Expr)
    (env : Environment) (args : List Value) :
    watchApply (frames + 1) (.closure cell params body env) args = (do
      let scope ← liftM (env.bindArgs params args)
      watchPart frames body scope) := rfl

/-! ## What a watched run comes to -/

variable {α β : Type}

namespace Watch

/-- What a watched computation comes to, without its record. -/
def outcome : EStateM.Result Fault Watch α → Outcome α
  | .ok a w => .ok a w.nextCell
  | .error fault w => .error fault w.nextCell

/-- The record of a watched computation. -/
def record : EStateM.Result Fault Watch α → Watch
  | .ok _ w => w
  | .error _ w => w

end Watch

/-- The first computation is the second one, watched: from any record it comes to the same. -/
def Watches (run : WatchM α) (act : EvalM α) : Prop :=
  ∀ w : Watch, Watch.outcome (run w) = act w.nextCell

namespace Watches

theorem throw (fault : Fault) : Watches (throw fault : WatchM α) (throw fault) :=
  fun _ => rfl

theorem pure (a : α) : Watches (Pure.pure a) (Pure.pure a) :=
  fun _ => rfl

theorem lift (act : EvalM α) : Watches (liftM act) act := by
  intro w
  cases hact : act w.nextCell with
  | ok a next => rw [WatchM.lift_run_ok hact, Watch.outcome]
  | error fault next => rw [WatchM.lift_run_error hact, Watch.outcome]

theorem liftExcept (r : Except Fault α) : Watches (liftM r) (liftM r) := by
  intro w
  cases r <;> rfl

theorem bind {run : WatchM α} {act : EvalM α} {runRest : α → WatchM β} {actRest : α → EvalM β}
    (h : Watches run act) (hrest : ∀ a, Watches (runRest a) (actRest a)) :
    Watches (run >>= runRest) (act >>= actRest) := by
  intro w
  rw [EvalM.bind_run act, ← h w]
  cases hrun : run w with
  | ok a v =>
    rw [EvalM.bind_run_ok hrun]
    exact hrest a v
  | error fault v =>
    rw [EvalM.bind_run_error hrun]
    rfl

theorem mapM {f : β → WatchM α} {g : β → EvalM α} (h : ∀ b, Watches (f b) (g b)) (items : List β) :
    Watches (items.mapM f) (items.mapM g) := by
  induction items with
  | nil => exact pure []
  | cons item items ih =>
    rw [List.mapM_cons, List.mapM_cons]
    exact (h item).bind fun a => ih.bind fun as => pure (a :: as)

theorem make (k : Closure) : Watches (WatchM.make k) (Pure.pure k.value) :=
  fun _ => rfl

theorem meet {run : WatchM Value} {act : EvalM Value} (h : Watches run act) :
    Watches (.meet run) act := by
  have hbind : Watches (.meet run) (act >>= Pure.pure) := h.bind fun v w => rfl
  rwa [bind_pure] at hbind

/-- Evaluation and application with so many frames can be watched. -/
structure At (frames : Nat) : Prop where
  eval (e : Expr) (env : Environment) : Watches (watchEval frames e env) (eval frames e env)
  part (e : Expr) (env : Environment) : Watches (watchPart frames e env) (evalPart frames e env)
  apply (callee : Value) (args : List Value) :
    Watches (watchApply frames callee args) (apply frames callee args)

namespace At

variable {frames : Nat} (ih : At frames)
include ih

theorem branches (whole rest : List (Expr × Expr)) (env : Environment) :
    Watches (watchBranches frames whole env rest) (evalBranches frames whole env rest) := by
  induction rest with
  | nil => exact lift _
  | cons b rest ihrest =>
    rw [watchBranches, evalBranches]
    apply (ih.part b.1 env).bind
    intro v
    by_cases hv : v.isTrue = true
    · rw [if_pos hv, if_pos hv]
      exact ih.part b.2 env
    · rw [if_neg hv, if_neg hv]
      exact ihrest

theorem eval_succ (e : Expr) (env : Environment) :
    Watches (watchEval (frames + 1) e env) (MiniLisp.eval (frames + 1) e env) := by
  cases e with
  | cond branches =>
    rw [watchEval_cond, eval_cond]
    exact (ih.branches branches branches env).meet
  | lambda params body =>
    rw [watchEval_lambda, eval_lambda]
    exact ((lift EvalM.freshCell).bind fun cell => make ⟨cell, params, body, env⟩).meet
  | app func args =>
    rw [watchEval_app, eval_app]
    have hargs := mapM (fun arg => ih.part arg env) args
    exact ((ih.eval func env).bind fun head => hargs.bind fun values => ih.apply head values).meet
  | _ => exact (lift _).meet

theorem apply_succ (callee : Value) (args : List Value) :
    Watches (watchApply (frames + 1) callee args) (MiniLisp.apply (frames + 1) callee args) := by
  cases callee with
  | closure cell params body env =>
    rw [watchApply_closure, apply_closure]
    exact (liftExcept _).bind fun scope => ih.part body scope
  | _ => exact lift _

end At

theorem frames (frames : Nat) : At frames := by
  induction frames with
  | zero => exact ⟨fun _ _ => throw _, fun _ _ => throw _, fun _ _ => throw _⟩
  | succ frames ih => exact ⟨ih.eval_succ, ih.eval, ih.apply_succ⟩

end Watches

/-- A watched evaluation comes to what the evaluation itself comes to. -/
theorem watchEval_watches (frames : Nat) (e : Expr) (env : Environment) :
    Watches (watchEval frames e env) (eval frames e env) :=
  (Watches.frames frames).eval e env

/-! ## Watched sessions -/

/-- Reads, builds and evaluates a text. -/
def watchText (frames : Nat) (env : Environment) (code : String) : WatchM Value := do
  let e ← (Source.text code).buildIn (.frames frames)
  watchEval frames e env

theorem watchText_watches (frames : Nat) (env : Environment) (code : String) :
    Watches (watchText frames env code) (runText frames env code) :=
  (Watches.liftExcept _).bind fun e => watchEval_watches frames e env

namespace Interpreter

open Session

/-- The record after one more step. -/
def watchStep (interp : Interpreter) (w : Watch) : Step → Watch
  | .eval code => Watch.record (watchText interp.frames interp.env code w)
  | _ => w

/-- The record after several steps. -/
def watchSession (interp : Interpreter) (steps : List Step) (w : Watch) : Watch :=
  steps.foldl interp.watchStep w

theorem snd_answerOf (code : String) (o : Outcome Value) : (answerOf code o).2 = nextCell o := by
  cases o with
  | ok v m => rfl
  | error fault m => cases fault <;> rfl

theorem nextCell_watchStep (interp : Interpreter) (w : Watch) (s : Step) :
    (interp.watchStep w s).nextCell = (interp.step s w.nextCell).2 := by
  cases s with
  | eval code =>
    show (Watch.record (watchText interp.frames interp.env code w)).nextCell =
      (interp.eval code w.nextCell).2
    rw [eval_eq, snd_answerOf, ← watchText_watches]
    cases watchText interp.frames interp.env code w <;> rfl
  | _ => rfl

theorem nextCell_watchSession (interp : Interpreter) (steps : List Step) (w : Watch) :
    (interp.watchSession steps w).nextCell = (interp.session steps w.nextCell).2 := by
  induction steps generalizing w with
  | nil => rfl
  | cons s rest ih =>
    show (interp.watchSession rest (interp.watchStep w s)).nextCell = _
    rw [ih, nextCell_watchStep, session_cons]

end Interpreter

end MiniLisp
