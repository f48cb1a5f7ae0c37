import MiniLisp.Proofs.TwoRuns.LexicalScope

/-!
Runs from different counters of cells. A run that starts further up makes its pairs and closures in cells
that are as much further up, and nothing else of it changes (`eval_renumber`): cells can be
compared with each other, and no text shows them.
-/

namespace MiniLisp

/-! ## Renumbered values -/

mutual

/-- The value with its cells renumbered, those in captured environments included. -/
def Value.renumber (f : Nat → Nat) : Value → Value
  | .pair cell head tail => .pair (f cell) (head.renumber f) (tail.renumber f)
  | .closure cell params body env => .closure (f cell) params body (Environment.renumber f env)
  | .int n => .int n
  | .bool b => .bool b
  | .symbol name => .symbol name
  | .text s => .text s
  | .nil => .nil
  | .primitive op => .primitive op

/-- The environment with the cells of its values renumbered. -/
def Environment.renumber (f : Nat → Nat) : Environment → Environment
  | [] => []
  | frame :: env => Frame.renumber f frame :: Environment.renumber f env

/-- The frame with the cells of its values renumbered. -/
def Frame.renumber (f : Nat → Nat) : Frame → Frame
  | [] => []
  | (name, v) :: rest => (name, v.renumber f) :: Frame.renumber f rest

end

variable {f : Nat → Nat}

theorem Value.renumber_of_plain {v : Value} (h : v.cell? = none) : v.renumber f = v := by
  cases v with
  | pair | closure => cases h
  | _ => rw [renumber]

theorem Frame.renumber_eq_self {frame : Frame}
    (h : ∀ binding ∈ frame, binding.2.renumber f = binding.2) : Frame.renumber f frame = frame := by
  induction frame with
  | nil => rfl
  | cons binding rest ih =>
    obtain ⟨hbinding, hrest⟩ := List.forall_mem_cons.1 h
    rw [Frame.renumber, hbinding, ih hrest]

theorem Environment.renumber_eq_self {env : Environment}
    (h : ∀ frame ∈ env, ∀ binding ∈ frame, binding.2.renumber f = binding.2) :
    Environment.renumber f env = env := by
  induction env with
  | nil => rfl
  | cons frame env ih =>
    obtain ⟨hframe, hrest⟩ := List.forall_mem_cons.1 h
    rw [Environment.renumber, Frame.renumber_eq_self hframe, ih hrest]

theorem Value.renumber_eq_self {v : Value} (h : v.AllCells fun cell => f cell = cell) :
    v.renumber f = v := by
  induction v with
  | pair cell head tail ihhead ihtail =>
    rw [renumber, h.cell rfl, ihhead h.head, ihtail h.tail]
  | closure cell params body env ih =>
    have henv : Environment.renumber f env = env := Environment.renumber_eq_self
      fun frame hframe binding hbinding =>
        ih frame hframe binding hbinding (h.binding hframe hbinding)
    rw [renumber, h.cell rfl, henv]
  | _ => rw [renumber]

theorem Frame.get?_renumber (frame : Frame) (name : String) :
    Frame.get? (Frame.renumber f frame) name = (frame.get? name).map (Value.renumber f) := by
  induction frame with
  | nil => rfl
  | cons binding rest ih =>
    obtain ⟨bound, v⟩ := binding
    rw [Frame.renumber, Frame.get?_cons, Frame.get?_cons, ih]
    by_cases hname : name = bound
    · rw [if_pos hname, if_pos hname]
      rfl
    · rw [if_neg hname, if_neg hname]

theorem Environment.get?_renumber (env : Environment) (name : String) :
    Environment.get? (Environment.renumber f env) name =
      (env.get? name).map (Value.renumber f) := by
  induction env with
  | nil => rfl
  | cons frame env ih =>
    rw [Environment.renumber, Environment.get?_cons, Environment.get?_cons, Frame.get?_renumber, ih]
    cases frame.get? name <;> rfl

theorem Frame.renumber_insert (frame : Frame) (name : String) (v : Value) :
    Frame.renumber f (frame.insert name v) =
      Frame.insert name (v.renumber f) (Frame.renumber f frame) := by
  induction frame with
  | nil => rfl
  | cons binding rest ih =>
    obtain ⟨bound, w⟩ := binding
    rw [Frame.insert, Frame.renumber, Frame.insert]
    by_cases hname : bound = name
    · rw [if_pos hname, if_pos hname, Frame.renumber]
    · rw [if_neg hname, if_neg hname, Frame.renumber, ih]

theorem Frame.renumber_ofBindings (params : List String) (args : List Value) :
    Frame.renumber f (Frame.ofBindings (params.zip args)) =
      Frame.ofBindings (params.zip (args.map (Value.renumber f))) := by
  -- The arguments are bound one by one, in a frame that has those before them.
  suffices h : ∀ frame : Frame,
      Frame.renumber f ((params.zip args).foldl (fun frame b => Frame.insert b.1 b.2 frame) frame) =
        (params.zip (args.map (Value.renumber f))).foldl (fun frame b => Frame.insert b.1 b.2 frame)
          (Frame.renumber f frame) from h []
  induction params generalizing args with
  | nil => exact fun _ => rfl
  | cons name params ih =>
    intro frame
    cases args with
    | nil => rfl
    | cons v args =>
      rw [List.zip_cons_cons, List.foldl_cons, ih, Frame.renumber_insert]
      rfl

theorem Environment.renumber_extend (env : Environment) (params : List String) (args : List Value) :
    Environment.renumber f (env.extend (params.zip args)) =
      Environment.extend (Environment.renumber f env)
        (params.zip (args.map (Value.renumber f))) := by
  rw [Environment.extend, Environment.renumber, Frame.renumber_ofBindings]
  rfl

/-! ## Cells that are moved up -/

/-- The number that a cell gets if those from `base` on are moved up by `k`. -/
def movedUp (base k cell : Nat) : Nat :=
  if cell < base then cell else cell + k

theorem movedUp_of_le {base k cell : Nat} (h : base ≤ cell) : movedUp base k cell = cell + k :=
  if_neg (by omega)

theorem movedUp_inj {base k c d : Nat} : movedUp base k c = movedUp base k d ↔ c = d := by
  unfold movedUp
  split <;> split <;> omega

theorem movedUp_of_lt {base k cell : Nat} (h : cell < base) : movedUp base k cell = cell :=
  if_pos h

/-- Runs of one expression, the second of which starts from a counter that is further up. -/
def fartherUp (base k : Nat) : Likeness :=
  { sameExpression base with
    cells := fun c d => d = movedUp base k c
    keeps := fun c => c < base
    made := fun c d => d = movedUp base k c
    counters := fun m n => base ≤ m ∧ n = m + k
    cells_iff := by
      rintro a b _ _ rfl rfl
      exact movedUp_inj.symm
    cells_of_keeps := fun h => (movedUp_of_lt h).symm
    cells_of_made := fun h => h
    made_of_counters := by
      rintro m _ ⟨h, rfl⟩
      exact (movedUp_of_le h).symm
    counters_succ := by
      rintro m _ ⟨h, rfl⟩
      exact ⟨Nat.le_succ_of_le h, by omega⟩ }

theorem Value.resembles_renumber (base k : Nat) (v : Value) :
    (fartherUp base k).Resembles v (v.renumber (movedUp base k)) := by
  induction v with
  | pair cell head tail ihhead ihtail =>
    rw [renumber]
    exact .pair rfl ihhead ihtail
  | closure cell params body env _ =>
    rw [renumber]
    exact .closure rfl rfl rfl
  | _ =>
    rw [renumber]
    exact .plain rfl

/-! ## Texts -/

theorem Frame.debugForm_renumber (base k : Nat) (frame : Frame) :
    Frame.debugForm (Frame.renumber (movedUp base k) frame) = frame.debugForm := by
  unfold Frame.debugForm
  congr 1
  induction frame with
  | nil => rfl
  | cons binding rest ih =>
    obtain ⟨name, v⟩ := binding
    rw [Frame.renumber, List.mapM_cons, List.mapM_cons, ih]
    have hv := (Value.resembles_renumber base k v).debugForm.eq trivial
    simp only [hv]

theorem Environment.debugForm_renumber (base k : Nat) (env : Environment) :
    Environment.debugForm (Environment.renumber (movedUp base k) env) = env.debugForm := by
  unfold Environment.debugForm
  congr 1
  induction env with
  | nil => rfl
  | cons frame env ih =>
    rw [Environment.renumber, List.mapM_cons, List.mapM_cons, ih, Frame.debugForm_renumber]

/-- What is seen of a value does not depend on its cells. -/
theorem Value.shown_renumber (base k : Nat) (v : Value) :
    (v.renumber (movedUp base k)).shown = v.shown := by
  have hlike := v.resembles_renumber base k
  have hclosure : (v.renumber (movedUp base k)).shownClosure = v.shownClosure := by
    cases v with
    | closure cell params body env =>
      rw [renumber, shownClosure, shownClosure, Environment.debugForm_renumber]
    | pair =>
      rw [renumber]
      rfl
    | _ => rw [renumber]
  rw [shown, shown, ← hlike.source.1.eq trivial, ← hlike.debugForm.eq trivial, ← hlike.kind, hclosure]

/-! ## Runs -/

theorem Environment.valueOf_renumber (env : Environment) (a : Atom) :
    Environment.valueOf (Environment.renumber f env) a = Value.renumber f <$> env.valueOf a := by
  have hget := env.get?_renumber (f := f) a.name
  cases hv : env.get? a.name with
  | some v =>
    rw [hv] at hget
    rw [valueOf_of_bound hv, valueOf_of_bound hget]
    rfl
  | none =>
    rw [hv] at hget
    rw [valueOf_of_unbound hv, valueOf_of_unbound hget]
    cases hvalue : Environment.valueOf [] a with
    | ok v => exact congrArg Except.ok (Value.renumber_of_plain (plain_of_valueOf_nil hvalue)).symm
    | error fault => rfl

theorem eq_map_of_forall₂ {args args' : List Value}
    (h : List.Forall₂ (fun v w => w = Value.renumber f v) args args') :
    args' = args.map (Value.renumber f) := by
  induction h with
  | nil => rfl
  | cons hv _ ih => rw [hv, ih, List.map_cons]

/-- Values that differ in their cells only, and one expression in environments that do. -/
def renumbering (base k : Nat) : SideBySide where
  like := fartherUp base k
  endings := Likeness.sameFaults _ trivial fun _ _ h => h
  values v w := w = v.renumber (movedUp base k)
  code e env e' env' := e = e' ∧ env' = Environment.renumber (movedUp base k) env
  resembles := by
    rintro v _ rfl
    exact v.resembles_renumber base k
  plain h := (Value.renumber_of_plain h).symm
  pair := by
    rintro c _ head _ tail _ rfl rfl rfl
    rw [Value.renumber]
  tail h := by
    rw [Value.renumber] at h
    cases h
    rfl
  call h hargs _ _ := by
    rw [Value.renumber] at h
    cases h
    rw [Environment.renumber_extend, eq_map_of_forall₂ hargs]
    exact ⟨rfl, rfl⟩
  parts := by
    rintro e _ env _ ⟨rfl, rfl⟩
    refine .same (fun env env' => env' = Environment.renumber (movedUp base k) env) rfl
      (fun a => ?_) ?_ e
    · rw [Environment.valueOf_renumber]
      cases env.valueOf a with
      | ok v => exact .pure rfl
      | error fault => exact .throw rfl
    · rintro params body c _ rfl
      rw [Value.renumber]

/-- The outcome of a run that starts from a counter which is further up. -/
def outcomeFartherUp (base k : Nat) : Outcome Value → Outcome Value
  | .ok v m => .ok (v.renumber (movedUp base k)) (m + k)
  | .error fault m => .error fault (m + k)

/-- The next free cell after a run. -/
def nextCell {α : Type} : Outcome α → Nat
  | .ok _ m => m
  | .error _ m => m

theorem le_nextCell_of_runs {base k : Nat} {act other : EvalM Value}
    (h : (renumbering base k).Runs act other) : base ≤ nextCell (act base) := by
  have houtcomes := h base (base + k) ⟨Nat.le_refl base, rfl⟩
  generalize act base = o at houtcomes ⊢
  generalize other (base + k) = o' at houtcomes
  cases houtcomes with
  | ok hvalue hcounters => exact hcounters.1
  | error hfaults hcounters => exact hcounters.1
  | excused hfault => exact hfault.elim

/-- No application gives cells back. -/
theorem le_nextCell_apply (frames : Nat) (callee : Value) (args : List Value) (base : Nat) :
    base ≤ nextCell (apply frames callee args base) := by
  have hargs : List.Forall₂ (renumbering base 0).values args
      (args.map (Value.renumber (movedUp base 0))) :=
    List.forall₂_map_right_iff.2 (List.forall₂_same.2 fun _ _ => rfl)
  exact le_nextCell_of_runs (((renumbering base 0).keptBy frames).apply rfl hargs)

/-- A run that starts further up comes to the same, with the cells that it makes as much further up; and
no run gives cells back. -/
theorem eval_renumber (frames : Nat) (e : Expr) (env : Environment) (base k : Nat) :
    eval frames e (Environment.renumber (movedUp base k) env) (base + k) =
        outcomeFartherUp base k (eval frames e env base) ∧
      base ≤ nextCell (eval frames e env base) := by
  have hcode : (renumbering base k).code e env e (Environment.renumber (movedUp base k) env) :=
    ⟨rfl, rfl⟩
  have hruns := (renumbering base k).runs_eval frames hcode
  refine ⟨?_, le_nextCell_of_runs hruns⟩
  have houtcomes := hruns base (base + k) ⟨Nat.le_refl base, rfl⟩
  generalize eval frames e env base = o at houtcomes ⊢
  generalize eval frames e _ (base + k) = o' at houtcomes ⊢
  cases houtcomes with
  | ok hvalue hcounters =>
    obtain ⟨-, rfl⟩ := hcounters
    obtain rfl := hvalue
    rfl
  | error hfaults hcounters =>
    obtain ⟨-, rfl⟩ := hcounters
    obtain rfl := hfaults
    rfl
  | excused hfault => exact hfault.elim

end MiniLisp
