import MiniLisp.Eval
import MiniLisp.Source

/-!
Workspaces: environments under names. Steps make new environments from earlier ones and ask them
questions; a step that fails makes none.
-/

namespace MiniLisp

/-- Environments by name, and the next free cell. -/
structure Workspace where
  envs : List (String × Environment)
  nextCell : Nat

namespace Workspace

/-- A step. All but `create` name an environment made before; those that make one name it too. -/
inductive Step where
  | create (made : String) (bindings : List (String × Value))
  | extend (env made : String) (bindings : List (String × Value))
  /-- Binds a name to the value of a program. -/
  | bind (env made name : String) (program : Program)
  | lookup (env name : String)
  | contains (env name : String)
  | find (env name : String)
  | frames (env : String)
  /-- Tries to change the binding of a name. -/
  | set (env name : String) (value : Value)
  | evaluate (env : String) (program : Program)

/-- What a step answers. -/
inductive Answer where
  | made (env : Environment)
  | value (v : Value)
  | contains (bound : Bool)
  | depth (position : Option Nat)
  | frames (env : Environment)

/-- No environment yet. -/
def empty (nextCell : Nat) : Workspace :=
  ⟨[], nextCell⟩

/-- The environment of that name; an environment without frames if there is none. -/
def env (w : Workspace) (name : String) : Environment :=
  (w.envs.lookup name).getD []

/-- Puts an environment under a name, in place of an earlier one. -/
def put (name : String) (env : Environment) (w : Workspace) : Workspace :=
  ⟨(name, env) :: w.envs, w.nextCell⟩

/-- A computation on a workspace. -/
abbrev WorkM := EStateM Fault Workspace

instance : MonadLift EvalM WorkM where
  monadLift act w :=
    match act w.nextCell with
    | .ok a next => .ok a ⟨w.envs, next⟩
    | .error fault next => .error fault ⟨w.envs, next⟩

/-- Puts a new environment under a name and answers it. -/
def make (name : String) (env : Environment) : WorkM Answer := do
  modify (put name env)
  pure (.made env)

/-- Takes one step, with that many frames for evaluation. -/
def step (frames : Nat) : Step → WorkM Answer
  | .create made bindings => make made (Environment.ofBindings bindings)
  | .extend name made bindings => do
    let w ← get
    make made ((w.env name).extend bindings)
  | .bind name made binder program => do
    let w ← get
    let e ← program.build
    let v ← eval frames e (w.env name)
    make made ((w.env name).extend [(binder, v)])
  | .lookup name wanted => do
    let w ← get
    let v ← (w.env name).lookup wanted
    pure (.value v)
  | .contains name wanted => do
    let w ← get
    pure (.contains ((w.env name).contains wanted))
  | .find name wanted => do
    let w ← get
    pure (.depth ((w.env name).find? wanted))
  | .frames name => do
    let w ← get
    pure (.frames (w.env name))
  | .set _ _ _ => throw .frozenFrame
  | .evaluate name program => do
    let w ← get
    let e ← program.build
    let v ← eval frames e (w.env name)
    pure (.value v)

/-- Takes a step and goes on from where it left the workspace, whether or not it failed. -/
def answer (frames : Nat) (s : Step) : StateM Workspace (Except Fault Answer) :=
  fun w =>
    match step frames s w with
    | .ok a w' => (.ok a, w')
    | .error fault w' => (.error fault, w')

/-- Takes several steps. -/
def run (frames : Nat) (steps : List Step) : StateM Workspace (List (Except Fault Answer)) :=
  steps.mapM (answer frames)

end Workspace

end MiniLisp
