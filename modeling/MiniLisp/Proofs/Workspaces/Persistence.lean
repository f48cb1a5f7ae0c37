import MiniLisp.Proofs.Interpreter.Sessions
import MiniLisp.Proofs.Reachability.NewCells
import MiniLisp.Proofs.Workspaces.Queries

/-!
Environments are persistent. A step on a workspace makes one new environment in front of an earlier one, or
makes none (`Workspace.takes_answer`); so whatever steps follow, an environment answers to each query what it
answered before, until its name is given to another (`Workspace.environments_are_persistent`).
-/

namespace MiniLisp.Workspace

/-! ## Steps -/

namespace Step

/-- The name that a step gives to the environment that it makes. -/
def made? : Step → Option String
  | .create made _ | .extend _ made _ | .bind _ made _ _ => some made
  | _ => none

/-- The environment that a query is asked of, if its answer takes no evaluation. -/
def asked? : Step → Option String
  | .lookup name _ | .contains name _ | .find name _ | .frames name | .set name _ _ => some name
  | _ => none

/-- The bindings that are given with a step. -/
def given : Step → List (String × Value)
  | .create _ bindings | .extend _ _ bindings => bindings
  | _ => []

/-- The step makes an environment: it extends the given one by the bindings, under the name in the last place.
A binding to the value of a program is made only if the program has a value. -/
inductive Makes (frames : Nat) (w : Workspace) :
    Step → Environment → List (String × Value) → String → Prop
  | create {made : String} {bindings : List (String × Value)} :
      Makes frames w (.create made bindings) [] bindings made
  | extend {name made : String} {bindings : List (String × Value)} :
      Makes frames w (.extend name made bindings) (w.env name) bindings made
  | bind {name made binder : String} {program : Program} {v : Value}
      (h : (answer frames (.evaluate name program) w).1 = .ok (.value v)) :
      Makes frames w (.bind name made binder program) (w.env name) [(binder, v)] made

/-- What a step does: it makes one environment, in front of those that there are, or it makes none. -/
inductive Takes (frames : Nat) (w : Workspace) (s : Step) : Except Fault Answer × Workspace → Prop
  | makes {base : Environment} {bindings : List (String × Value)} {made : String} {next : Nat}
      (h : s.Makes frames w base bindings made) (hle : w.nextCell ≤ next) :
      Takes frames w s
        (.ok (.made (base.extend bindings)), ⟨(made, base.extend bindings) :: w.envs, next⟩)
  | asks {a : Answer} {next : Nat} (h : s.made? = none) (hle : w.nextCell ≤ next) :
      Takes frames w s (.ok a, ⟨w.envs, next⟩)
  | fails {fault : Fault} {next : Nat} (hle : w.nextCell ≤ next) :
      Takes frames w s (.error fault, ⟨w.envs, next⟩)

theorem Makes.made?_eq {frames : Nat} {w : Workspace} {s : Step} {base : Environment}
    {bindings : List (String × Value)} {made : String} (h : s.Makes frames w base bindings made) :
    s.made? = some made := by
  cases h <;> rfl

end Step

/-! ## Programs -/

/-- The run of a program in an environment. -/
def runProgram (frames : Nat) (program : Program) (env : Environment) : EvalM Value := do
  let e ← program.build
  eval frames e env

theorem runProgram_of_error {program : Program} {fault : Fault} (h : program.build = .error fault)
    (frames : Nat) (env : Environment) : runProgram frames program env = throw fault := by
  rw [runProgram, h]
  rfl

theorem runProgram_of_ok {program : Program} {e : Expr} (h : program.build = .ok e) (frames : Nat)
    (env : Environment) : runProgram frames program env = eval frames e env := by
  rw [runProgram, h]
  rfl

theorem runProgram_fartherUp (frames : Nat) (program : Program) {env : Environment} {base : Nat}
    (h : env.IsBefore base) (k : Nat) :
    runProgram frames program env (base + k) =
      outcomeFartherUp base k (runProgram frames program env base) := by
  cases hbuild : program.build with
  | error fault =>
    rw [runProgram_of_error hbuild]
    rfl
  | ok e =>
    have heval := (eval_renumber frames e env base k).1
    rw [h.renumber k] at heval
    rwa [runProgram_of_ok hbuild]

theorem le_runProgram (frames : Nat) (program : Program) (env : Environment) (base : Nat) :
    base ≤ MiniLisp.nextCell (runProgram frames program env base) := by
  cases hbuild : program.build with
  | error fault =>
    rw [runProgram_of_error hbuild]
    exact Nat.le_refl base
  | ok e =>
    rw [runProgram_of_ok hbuild]
    exact (eval_renumber frames e env base 0).2

theorem runProgram_isBefore {frames base m : Nat} {program : Program} {env : Environment} {v : Value}
    (hrun : runProgram frames program env base = .ok v m) (h : env.IsBefore base) : v.IsBefore m := by
  cases hbuild : program.build with
  | error fault =>
    rw [runProgram_of_error hbuild] at hrun
    cases hrun
  | ok e =>
    rw [runProgram_of_ok hbuild] at hrun
    exact (eval_isBefore hrun h).2

theorem lift_run_ok {α : Type} {w : Workspace} {act : EvalM α} {a : α} {next : Nat}
    (h : act w.nextCell = .ok a next) : (liftM act : WorkM α) w = .ok a ⟨w.envs, next⟩ := by
  simp only [liftM, monadLift, MonadLift.monadLift, h]

theorem lift_run_error {α : Type} {w : Workspace} {act : EvalM α} {fault : Fault} {next : Nat}
    (h : act w.nextCell = .error fault next) :
    (liftM act : WorkM α) w = .error fault ⟨w.envs, next⟩ := by
  simp only [liftM, monadLift, MonadLift.monadLift, h]

/-- A step that runs a program and goes on with its value. -/
theorem build_eval_run (frames : Nat) (program : Program) (env : Environment)
    (rest : Value → WorkM Answer) (w : Workspace) :
    (do
      let e ← program.build
      let v ← eval frames e env
      rest v : WorkM Answer) w = (liftM (runProgram frames program env) >>= rest) w := by
  cases hbuild : program.build with
  | error fault =>
    rw [runProgram_of_error hbuild]
    rfl
  | ok e =>
    rw [runProgram_of_ok hbuild]
    rfl

/-! ## Answers -/

variable {frames : Nat} {w w' : Workspace} {s : Step}

section

variable {name made binder : String} {program : Program} {v : Value} {fault : Fault} {next : Nat}

theorem step_evaluate (frames : Nat) (w : Workspace) (name : String) (program : Program) :
    step frames (.evaluate name program) w =
      (do
        let v ← runProgram frames program (w.env name)
        pure (.value v) : WorkM Answer) w :=
  build_eval_run frames program (w.env name) _ w

theorem step_bind (frames : Nat) (w : Workspace) (name made binder : String) (program : Program) :
    step frames (.bind name made binder program) w =
      (do
        let v ← runProgram frames program (w.env name)
        make made ((w.env name).extend [(binder, v)]) : WorkM Answer) w :=
  build_eval_run frames program (w.env name) _ w

theorem answer_evaluate_ok (h : runProgram frames program (w.env name) w.nextCell = .ok v next) :
    answer frames (.evaluate name program) w = (.ok (.value v), ⟨w.envs, next⟩) := by
  refine answer_of_ok ?_
  rw [step_evaluate, EvalM.bind_run_ok (lift_run_ok h)]
  rfl

theorem answer_evaluate_error (h : runProgram frames program (w.env name) w.nextCell = .error fault next) :
    answer frames (.evaluate name program) w = (.error fault, ⟨w.envs, next⟩) := by
  refine answer_of_error ?_
  rw [step_evaluate, EvalM.bind_run_error (lift_run_error h)]

theorem answer_bind_ok (h : runProgram frames program (w.env name) w.nextCell = .ok v next) :
    answer frames (.bind name made binder program) w =
      (.ok (.made ((w.env name).extend [(binder, v)])),
        ⟨(made, (w.env name).extend [(binder, v)]) :: w.envs, next⟩) := by
  refine answer_of_ok ?_
  rw [step_bind, EvalM.bind_run_ok (lift_run_ok h)]
  rfl

theorem answer_bind_error (h : runProgram frames program (w.env name) w.nextCell = .error fault next) :
    answer frames (.bind name made binder program) w = (.error fault, ⟨w.envs, next⟩) := by
  refine answer_of_error ?_
  rw [step_bind, EvalM.bind_run_error (lift_run_error h)]

theorem exists_run_of_evaluate (h : (answer frames (.evaluate name program) w).1 = .ok (.value v)) :
    ∃ next, runProgram frames program (w.env name) w.nextCell = .ok v next := by
  cases hrun : runProgram frames program (w.env name) w.nextCell with
  | ok u next =>
    rw [answer_evaluate_ok hrun] at h
    cases h
    exact ⟨next, rfl⟩
  | error fault next =>
    rw [answer_evaluate_error hrun] at h
    cases h

end

theorem answer_of_makes {base : Environment} {bindings : List (String × Value)} {made : String}
    (h : s.Makes frames w base bindings made) :
    ∃ next, answer frames s w = (.ok (.made (base.extend bindings)),
      ⟨(made, base.extend bindings) :: w.envs, next⟩) := by
  cases h with
  | create => exact ⟨w.nextCell, rfl⟩
  | extend => exact ⟨w.nextCell, rfl⟩
  | bind h =>
    obtain ⟨next, hrun⟩ := exists_run_of_evaluate h
    exact ⟨next, answer_bind_ok hrun⟩

theorem takes_answer (frames : Nat) (w : Workspace) (s : Step) :
    s.Takes frames w (answer frames s w) := by
  cases s with
  | create made bindings => exact .makes .create (Nat.le_refl _)
  | extend name made bindings => exact .makes .extend (Nat.le_refl _)
  | bind name made binder program =>
    have hle := le_runProgram frames program (w.env name) w.nextCell
    cases hrun : runProgram frames program (w.env name) w.nextCell with
    | ok v next =>
      rw [hrun] at hle
      rw [answer_bind_ok hrun]
      refine .makes (.bind ?_) hle
      rw [answer_evaluate_ok hrun]
    | error fault next =>
      rw [hrun] at hle
      rw [answer_bind_error hrun]
      exact .fails hle
  | lookup name wanted =>
    rw [answer_lookup]
    cases (w.env name).lookup wanted with
    | ok v => exact .asks rfl (Nat.le_refl _)
    | error fault => exact .fails (Nat.le_refl _)
  | contains name wanted => exact .asks rfl (Nat.le_refl _)
  | find name wanted => exact .asks rfl (Nat.le_refl _)
  | frames name => exact .asks rfl (Nat.le_refl _)
  | set name wanted v => exact .fails (Nat.le_refl _)
  | evaluate name program =>
    have hle := le_runProgram frames program (w.env name) w.nextCell
    cases hrun : runProgram frames program (w.env name) w.nextCell with
    | ok v next =>
      rw [hrun] at hle
      rw [answer_evaluate_ok hrun]
      exact .asks rfl hle
    | error fault next =>
      rw [hrun] at hle
      rw [answer_evaluate_error hrun]
      exact .fails hle

/-! ## Invariants -/

/-- All environments bind their names once in each frame, and are made before the next step. -/
structure Sound (w : Workspace) : Prop where
  isBefore : ∀ named ∈ w.envs, Environment.IsBefore named.2 w.nextCell
  once : ∀ named ∈ w.envs, Environment.NamesOnce named.2

theorem env_eq_nil_or_mem (w : Workspace) (name : String) :
    w.env name = [] ∨ ∃ named ∈ w.envs, w.env name = named.2 := by
  rw [env]
  cases h : w.envs.lookup name with
  | none => exact .inl rfl
  | some chain =>
    obtain ⟨before, after, heq, -⟩ := List.lookup_eq_some_iff.1 h
    refine .inr ⟨(name, chain), ?_, rfl⟩
    rw [heq]
    simp

namespace Sound

theorem empty (next : Nat) : (Workspace.empty next).Sound :=
  ⟨by simp [Workspace.empty], by simp [Workspace.empty]⟩

theorem env (h : w.Sound) (name : String) :
    (w.env name).IsBefore w.nextCell ∧ (w.env name).NamesOnce := by
  rcases w.env_eq_nil_or_mem name with hnil | ⟨named, hnamed, heq⟩
  · rw [hnil]
    exact ⟨Environment.isBefore_nil _, Environment.namesOnce_nil⟩
  · rw [heq]
    exact ⟨h.isBefore named hnamed, h.once named hnamed⟩

/-- What a step extends has been made before it, and so have the bindings before the step is over. -/
theorem makes (h : w.Sound) (hgiven : ∀ b ∈ s.given, b.2.IsBefore w.nextCell) {base : Environment}
    {bindings : List (String × Value)} {made : String} (hmakes : s.Makes frames w base bindings made) :
    base.IsBefore w.nextCell ∧ base.NamesOnce ∧
      ∀ b ∈ bindings, b.2.IsBefore (answer frames s w).2.nextCell := by
  cases hmakes with
  | create => exact ⟨Environment.isBefore_nil _, Environment.namesOnce_nil, hgiven⟩
  | @extend name => exact ⟨(h.env name).1, (h.env name).2, hgiven⟩
  | @bind name made binder program v hvalue =>
    refine ⟨(h.env name).1, (h.env name).2, fun b hb => ?_⟩
    obtain rfl := List.mem_singleton.1 hb
    obtain ⟨next, hrun⟩ := exists_run_of_evaluate hvalue
    rw [answer_bind_ok hrun]
    exact runProgram_isBefore hrun (h.env name).1

theorem answer (h : w.Sound) (hgiven : ∀ b ∈ s.given, b.2.IsBefore w.nextCell) :
    (Workspace.answer frames s w).2.Sound := by
  have hmade (base : Environment) (bindings : List (String × Value)) (made : String)
      (hmakes : s.Makes frames w base bindings made) := h.makes hgiven hmakes
  have htakes := takes_answer frames w s
  generalize Workspace.answer frames s w = result at htakes hmade ⊢
  cases htakes with
  | @makes base bindings made next hmakes hle =>
    obtain ⟨hbefore, honce, hbindings⟩ := hmade base bindings made hmakes
    exact ⟨List.forall_mem_cons.2 ⟨(hbefore.mono hle).extend hbindings,
        fun named hnamed => (h.isBefore named hnamed).mono hle⟩,
      List.forall_mem_cons.2 ⟨honce.extend bindings, h.once⟩⟩
  | asks _ hle => exact ⟨fun named hnamed => (h.isBefore named hnamed).mono hle, h.once⟩
  | fails hle => exact ⟨fun named hnamed => (h.isBefore named hnamed).mono hle, h.once⟩

end Sound

/-! ## Sequences of steps -/

/-- The values that come with each step are made before it. -/
def GivesMade (frames : Nat) : List Step → Workspace → Prop
  | [], _ => True
  | s :: rest, w =>
    (∀ b ∈ s.given, b.2.IsBefore w.nextCell) ∧ GivesMade frames rest (answer frames s w).2

theorem run_cons (frames : Nat) (s : Step) (rest : List Step) (w : Workspace) :
    run frames (s :: rest) w =
      ((answer frames s w).1 :: (run frames rest (answer frames s w).2).1,
        (run frames rest (answer frames s w).2).2) := by
  rw [run, List.mapM_cons]
  rfl

theorem Sound.run {steps : List Step} (h : w.Sound) (hgives : GivesMade frames steps w) :
    (run frames steps w).2.Sound := by
  induction steps generalizing w with
  | nil => exact h
  | cons s rest ih =>
    rw [run_cons]
    exact ih (h.answer hgives.1) hgives.2

/-- A step leaves the environment of each name that it does not give to another. -/
theorem env_answer {name : String}
    (h : ∀ a, (answer frames s w).1 = .ok a → s.made? ≠ some name) :
    (answer frames s w).2.env name = w.env name ∧ w.nextCell ≤ (answer frames s w).2.nextCell := by
  have htakes := takes_answer frames w s
  generalize answer frames s w = result at htakes h ⊢
  cases htakes with
  | @makes base bindings made next hmakes hle =>
    have hne : ¬ name = made := fun heq => h _ rfl (heq ▸ hmakes.made?_eq)
    refine ⟨?_, hle⟩
    rw [env, env, List.lookup_cons, beq_eq_false_iff_ne.2 hne]
  | asks _ hle => exact ⟨rfl, hle⟩
  | fails hle => exact ⟨rfl, hle⟩

/-- Several steps leave the environment of each name that none of them gives to another. -/
theorem env_run {steps : List Step} {name : String}
    (h : ∀ s a, (s, .ok a) ∈ steps.zip (run frames steps w).1 → s.made? ≠ some name) :
    (run frames steps w).2.env name = w.env name ∧
      w.nextCell ≤ (run frames steps w).2.nextCell := by
  induction steps generalizing w with
  | nil => exact ⟨rfl, Nat.le_refl _⟩
  | cons s rest ih =>
    rw [run_cons] at h ⊢
    -- The answer to the first step is the first of all answers.
    have hfirst : ∀ a, (answer frames s w).1 = .ok a → s.made? ≠ some name := by
      intro a ha
      refine h s a ?_
      rw [List.zip_cons_cons, ha]
      exact List.mem_cons_self
    obtain ⟨henv, hle⟩ := env_answer hfirst
    obtain ⟨henvs, hles⟩ := ih fun s a hmem => h s a (List.mem_cons_of_mem _ hmem)
    exact ⟨henvs.trans henv, hle.trans hles⟩

/-! ## Persistence -/

/-- Answers that look the same: they are, or they are values of which the same is seen. -/
inductive LooksSame : Except Fault Answer → Except Fault Answer → Prop
  | refl (r : Except Fault Answer) : LooksSame r r
  | value {v u : Value} (h : v.shown = u.shown) : LooksSame (.ok (.value v)) (.ok (.value u))

/-- In the second workspace the environment of that name answers as in the first. Programs come to values
that are made anew, of which the same is seen. -/
structure Keeps (frames : Nat) (w w' : Workspace) (name : String) : Prop where
  env : w'.env name = w.env name
  asked (s : Step) (h : s.asked? = some name) : (answer frames s w').1 = (answer frames s w).1
  evaluate (program : Program) :
    LooksSame (answer frames (.evaluate name program) w).1
      (answer frames (.evaluate name program) w').1

theorem answer_eq_of_env_eq {name : String} (henv : w'.env name = w.env name)
    (hasked : s.asked? = some name) : (answer frames s w').1 = (answer frames s w).1 := by
  cases s with
  | lookup _ wanted =>
    cases hasked
    rw [answer_lookup, answer_lookup, henv]
  | contains _ wanted =>
    cases hasked
    rw [answer_contains, answer_contains, henv]
  | find _ wanted =>
    cases hasked
    rw [answer_find, answer_find, henv]
  | frames =>
    cases hasked
    rw [answer_frames, answer_frames, henv]
  | set => rfl
  | _ => cases hasked

theorem keeps_of_env_eq {name : String} (hw : (w.env name).IsBefore w.nextCell)
    (henv : w'.env name = w.env name) (hle : w.nextCell ≤ w'.nextCell) : Keeps frames w w' name where
  env := henv
  asked _ := answer_eq_of_env_eq henv
  evaluate program := by
    -- The later run is the earlier one with its new cells farther up, which nothing shows.
    obtain ⟨k, hk⟩ := Nat.exists_eq_add_of_le hle
    have hrun' := runProgram_fartherUp frames program hw k
    rw [← henv, ← hk] at hrun'
    cases hrun : runProgram frames program (w.env name) w.nextCell with
    | ok v next =>
      rw [henv, hrun] at hrun'
      rw [answer_evaluate_ok hrun, answer_evaluate_ok (henv ▸ hrun')]
      exact .value (Value.shown_renumber _ _ v).symm
    | error fault next =>
      rw [henv, hrun] at hrun'
      rw [answer_evaluate_error hrun, answer_evaluate_error (henv ▸ hrun')]
      exact .refl _

/-- The environment of that name is another one with a frame of bindings in front. A repeated name keeps its
first place and its last value, and every name that the bindings do not have means what it meant. -/
structure Extends (frames : Nat) (w : Workspace) (made : String) (base : Environment)
    (bindings : List (String × Value)) : Prop where
  env : ∃ frame : Frame, w.env made = frame :: base ∧
    frame.names = (bindings.map Prod.fst).eraseDups
  lookup (wanted : String) : (answer frames (.lookup made wanted) w).1 =
    (bindings.reverse.lookup wanted).elim (Answer.value <$> base.lookup wanted)
      fun v => .ok (.value v)

theorem extends_of_makes {base : Environment} {bindings : List (String × Value)} {made : String}
    (h : s.Makes frames w base bindings made) :
    (answer frames s w).1 = .ok (.made (base.extend bindings)) ∧
      Extends frames (answer frames s w).2 made base bindings := by
  obtain ⟨next, hanswer⟩ := answer_of_makes h
  rw [hanswer]
  have henv : Workspace.env ⟨(made, base.extend bindings) :: w.envs, next⟩ made =
      base.extend bindings := by
    rw [env, List.lookup_cons, beq_iff_eq.2 rfl, Option.getD_some]
  refine ⟨rfl, ⟨_, henv, Frame.names_ofBindings bindings⟩, fun wanted => ?_⟩
  rw [answer_lookup, henv, Environment.lookup_extend]
  cases bindings.reverse.lookup wanted <;> rfl

/-- Environments are persistent, and their queries agree. After any steps, a step that fails makes no
environment, and one that makes an environment extends what there is; the queries of each environment
agree; and whatever steps follow, an environment answers what it answered before, as long as no step
succeeds in giving its name to another. -/
theorem environments_are_persistent (frames next : Nat) (steps : List Step)
    (hgives : GivesMade frames steps (empty next)) :
    let w := (run frames steps (empty next)).2
    (∀ s fault w', answer frames s w = (.error fault, w') → w'.envs = w.envs) ∧
      (∀ s base bindings made, s.Makes frames w base bindings made →
        (answer frames s w).1 = .ok (.made (base.extend bindings)) ∧
          Extends frames (answer frames s w).2 made base bindings) ∧
      (∀ name, QueriesAgree frames w name (w.env name)) ∧
      ∀ name later, (∀ s a, (s, .ok a) ∈ later.zip (run frames later w).1 → s.made? ≠ some name) →
        Keeps frames w (run frames later w).2 name := by
  intro w
  have hsound : w.Sound := (Sound.empty next).run hgives
  refine ⟨fun s fault w' hanswer => ?_, fun s base bindings made => extends_of_makes,
    fun name => queriesAgree frames (hsound.env name).2, fun name later hlater => ?_⟩
  · have htakes := takes_answer frames w s
    rw [hanswer] at htakes
    cases htakes
    rfl
  · obtain ⟨henv, hle⟩ := env_run hlater
    exact keeps_of_env_eq (hsound.env name).1 henv hle

/-- A repeated name with a falsy last value, a step that fails, and a name that is given to another environment
while one that was made from the first is kept. -/
theorem environment_kept_while_its_base_is_renamed :
    let bindings : List (String × Value) := [("x", .int 1), ("y", .nil), ("x", .bool false)]
    let f : Expr := .lambda ["z"] (.identifier "x")
    let steps : List Step := [.create "a" bindings, .bind "a" "b" "f" (.expr f),
      .bind "a" "c" "u" (.expr (.identifier "u"))]
    let later : List Step := [.extend "b" "a" [("x", .int 2)], .set "b" "x" .nil]
    let w := (run 9 steps (empty 0)).2
    let base : Environment := [[("x", .bool false), ("y", .nil)]]
    GivesMade 9 steps (empty 0) ∧
      w.env "b" = [("f", .closure 0 ["z"] (.identifier "x") base)] :: base ∧ w.env "c" = [] ∧
      QueriesAgree 9 w "b" (w.env "b") ∧ Keeps 9 w (run 9 later w).2 "b" ∧
      (run 9 later w).2.env "a" = [("x", .int 2)] :: w.env "b" := by
  intro bindings f steps later w base
  have hplain : ∀ b ∈ bindings, b.2.cell? = none := by decide
  have hgives : GivesMade 9 steps (empty 0) :=
    ⟨fun b hb => Value.allCells_of_cell?_eq_none (hplain b hb), by simp [Step.given],
      by simp [Step.given], trivial⟩
  obtain ⟨-, -, hagree, hkeeps⟩ := environments_are_persistent 9 0 steps hgives
  have hmade : ∀ s ∈ later, s.made? ≠ some "b" := by simp [later, Step.made?]
  refine ⟨hgives, rfl, rfl, hagree "b", hkeeps "b" later fun s a hmem => ?_, rfl⟩
  exact hmade s (List.of_mem_zip hmem).1

end MiniLisp.Workspace
