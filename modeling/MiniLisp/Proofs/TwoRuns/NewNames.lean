import MiniLisp.Proofs.TwoRuns.ExtraFrame

/-!
Defining new names never breaks a working program. If an expression comes to an outcome other than an
unbound name, it comes to the same outcome where new names are bound in a frame in front of its
environment: nothing handles a failed lookup, so a run that does not end with one has none.
-/

namespace MiniLisp

/-- Values that differ at most by the frame in what closures of the runs have captured, and that a program
and its user cannot tell apart. -/
structure SameButFrame (x : ExtraFrame) (v w : Value) : Prop where
  widened : Value.Widened x v w
  kind : v.kind = w.kind
  source : v.source = w.source
  debugForm : v.debugForm = w.debugForm
  equal {v' w' : Value} (h : Value.Widened x v' w') : v.isEqual v' = w.isEqual w'

/-- Outcomes with such values, or with one fault. -/
inductive SameOutcomeButFrame (x : ExtraFrame) : Outcome Value → Outcome Value → Prop
  | value {v w : Value} {m : Nat} (h : SameButFrame x v w) :
      SameOutcomeButFrame x (.ok v m) (.ok w m)
  | fault (f : Fault) (m : Nat) : SameOutcomeButFrame x (.error f m) (.error f m)

theorem Value.Widened.sameButFrame {x : ExtraFrame} {v w : Value} (h : Value.Widened x v w) :
    SameButFrame x v w where
  widened := h
  kind := h.toLike.resembles.kind
  source := h.toLike.resembles.source.1.eq trivial
  debugForm := h.toLike.resembles.debugForm.eq trivial
  equal h' := h.toLike.resembles.isEqual h'.toLike.resembles

namespace ExtraFrame

variable {x : ExtraFrame}

/-- Runs with and without the frame use the same cells and end with the same faults, unless the first
reports an unbound name. -/
def coupling (x : ExtraFrame) : Coupling where
  counters m n := m = n ∧ x.since ≤ m
  faults := Eq
  excused fault := fault.kind = .unbound

/-- The two computations come to values that differ at most by the frame, or to the same fault. -/
abbrev Runs (x : ExtraFrame) (first second : EvalM Value) : Prop :=
  x.coupling.Runs (Value.Widened x) first second

theorem runs_atom {env env' : Environment} (henv : Environment.Widened x env env') (a : Atom) :
    x.Runs (liftM (env.valueOf a)) (liftM (env'.valueOf a)) := by
  rcases henv.get? a.name with hbound | ⟨hnone, hname⟩
  · generalize hv : env.get? a.name = found at hbound
    generalize hw : env'.get? a.name = found' at hbound
    cases hbound with
    | some hvalue =>
      rw [Environment.valueOf_of_bound hv, Environment.valueOf_of_bound hw]
      exact .pure hvalue
    | none =>
      rw [Environment.valueOf_of_unbound hv, Environment.valueOf_of_unbound hw]
      cases Environment.valueOf [] a with
      | ok v => exact .pure (.same v)
      | error fault => exact .throw rfl
  · -- The frame gives the name a meaning, but the first run ends here.
    rw [Environment.valueOf_of_unbound hnone,
      Environment.valueOf_of_meaningless (x.isNew a.name hname)]
    exact .throw_excused rfl _

/-- Values and environments that differ at most by the frame are handed on by each step of one
expression. -/
def sideBySide (x : ExtraFrame) : SideBySide where
  like := sameUnlessUnbound x.since
  endings := Likeness.sameFaults _ trivial fun _ _ h => h
  values := Value.Widened x
  code e env e' env' := e = e' ∧ Environment.Widened x env env'
  resembles h := h.toLike.resembles
  plain _ := .same _
  pair := by
    rintro c _ _ _ _ _ ⟨rfl, hle⟩ hhead htail
    exact .pair hle hhead htail
  tail h := by
    cases h with
    | same => exact .same _
    | pair _ _ htail => exact htail
  call h hargs _ _ := by
    cases h with
    | same => exact ⟨rfl, .extend (.same _) _ hargs⟩
    | closure _ henv => exact ⟨rfl, henv.extend _ hargs⟩
  parts := by
    rintro e _ env env' ⟨rfl, henv⟩
    refine .same (Environment.Widened x) henv (fun a => ?_) ?_ e
    · exact runs_atom henv a
    · rintro params body c _ ⟨rfl, hle⟩
      exact .closure hle henv

theorem runs_eval (x : ExtraFrame) (frames : Nat) (e : Expr) {env env' : Environment}
    (henv : Environment.Widened x env env') : x.Runs (eval frames e env) (eval frames e env') :=
  x.sideBySide.runs_eval frames ⟨rfl, henv⟩

/-- The frame of bindings whose names mean nothing in an environment. -/
def ofBindings (bindings : List (String × Value)) (env : Environment) (next : Nat)
    (h : ∀ binding ∈ bindings, ¬ env.GivesMeaning (.literal binding.1)) : ExtraFrame where
  frame := Frame.ofBindings bindings
  outer := env
  since := next
  isNew name hname := by
    rw [Frame.names_ofBindings, List.mem_eraseDups] at hname
    obtain ⟨binding, hbinding, rfl⟩ := List.mem_map.1 hname
    exact h binding hbinding

end ExtraFrame

namespace SameOutcomeButFrame

variable {x : ExtraFrame} {o o' : Outcome Value}

theorem of_outcomes (h : x.coupling.Outcomes (Value.Widened x) o o')
    (hreports : ∀ name m, o ≠ .error (.unbound name) m) : SameOutcomeButFrame x o o' := by
  cases h with
  | ok hvalue hcounters =>
    obtain ⟨rfl, -⟩ := hcounters
    exact .value hvalue.sameButFrame
  | @error f g m n hfaults hcounters =>
    obtain ⟨rfl, -⟩ := hcounters
    obtain rfl : f = g := hfaults
    exact .fault f m
  | @excused f m o hunbound =>
    have hkind : f.kind = .unbound := hunbound
    cases f with
    | unbound name => exact absurd rfl (hreports name m)
    | _ => cases hkind

theorem finished (h : SameOutcomeButFrame x o o') (hfinished : Finished o) : Finished o' := by
  cases h with
  | value => trivial
  | fault => exact hfinished

theorem of_eval (e : Expr) (frames : Nat)
    (hreports : ∀ name m, eval frames e x.outer x.since ≠ .error (.unbound name) m) :
    SameOutcomeButFrame x (eval frames e x.outer x.since)
      (eval frames e (x.frame :: x.outer) x.since) :=
  .of_outcomes (x.runs_eval frames e .extra x.since x.since ⟨rfl, Nat.le_refl _⟩) hreports

end SameOutcomeButFrame

/-- New names in front of an environment, which are not bound in it and do not stand for themselves, keep
every outcome but that of an unbound name, within any number of frames and without a limit. -/
theorem new_names_keep_outcomes (e : Expr) (env : Environment) (bindings : List (String × Value))
    (next : Nat) (h : ∀ binding ∈ bindings, ¬ env.GivesMeaning (.literal binding.1)) :
    let x : ExtraFrame := .ofBindings bindings env next h
    (∀ frames, (∀ name m, eval frames e env next ≠ .error (.unbound name) m) →
      SameOutcomeButFrame x (eval frames e env next) (eval frames e (env.extend bindings) next)) ∧
    ∀ o, EndsWith e env next o → (∀ name m, o ≠ .error (.unbound name) m) →
      ∃ o', EndsWith e (env.extend bindings) next o' ∧ SameOutcomeButFrame x o o' := by
  intro x
  refine ⟨fun frames hreports => .of_eval (x := x) e frames hreports, fun o hends hreports => ?_⟩
  obtain ⟨frames, rfl⟩ := hends.eventually.exists
  have hsame := SameOutcomeButFrame.of_eval (x := x) e frames hreports
  exact ⟨_, endsWith_of_finished (hsame.finished hends.finished), hsame⟩

/-- A program that names one of the new names in a branch that it does not reach and in the closure that it
comes to. -/
theorem new_names_in_a_closure :
    let inner : Expr := .app (.literal "cons") [.literal "x", .literal "new"]
    let e : Expr := .app (.lambda ["x"]
      (.cond [(.literal "#f", .identifier "other"), (.literal "else", .lambda ["z"] inner)])) [.literal "y"]
    let env : Environment := [[("y", .int 1)]]
    let bindings : List (String × Value) := [("new", .int 5), ("other", .nil)]
    let frame : Frame := [("new", .int 5), ("other", .nil)]
    (∀ binding ∈ bindings, ¬ env.GivesMeaning (.literal binding.1)) ∧
      eval 9 e env 4 = .ok (.closure 5 ["z"] inner ([("x", .int 1)] :: env)) 6 ∧
      eval 9 e (env.extend bindings) 4 =
        .ok (.closure 5 ["z"] inner ([("x", .int 1)] :: frame :: env)) 6 ∧
      ∃ x : ExtraFrame, x.frame = frame ∧ x.outer = env ∧ x.since = 4 ∧
        SameOutcomeButFrame x (eval 9 e env 4) (eval 9 e (env.extend bindings) 4) ∧
        ∃ o, EndsWith e (env.extend bindings) 4 o ∧ SameOutcomeButFrame x (eval 9 e env 4) o := by
  intro inner e env bindings frame
  have hnew : ∀ binding ∈ bindings, ¬ env.GivesMeaning (.literal binding.1) := by
    intro binding hbinding
    simp only [bindings, List.mem_cons, List.not_mem_nil, or_false] at hbinding
    rcases hbinding with rfl | rfl
    · exact Environment.not_givesMeaning_literal.2 ⟨rfl, rfl, by decide, rfl⟩
    · exact Environment.not_givesMeaning_literal.2 ⟨rfl, rfl, by decide, rfl⟩
  have hrun : eval 9 e env 4 = .ok (.closure 5 ["z"] inner ([("x", .int 1)] :: env)) 6 := by cbv
  have hrun' : eval 9 e (env.extend bindings) 4 =
      .ok (.closure 5 ["z"] inner ([("x", .int 1)] :: frame :: env)) 6 := by cbv
  have hreports : ∀ name m, eval 9 e env 4 ≠ .error (.unbound name) m := by
    rw [hrun]
    simp
  have hends : EndsWith e env 4 (eval 9 e env 4) := endsWith_of_finished (by rw [hrun]; trivial)
  obtain ⟨hframes, hunlimited⟩ := new_names_keep_outcomes e env bindings 4 hnew
  exact ⟨hnew, hrun, hrun', .ofBindings bindings env 4 hnew, rfl, rfl, rfl, hframes 9 hreports,
    hunlimited _ hends hreports⟩

end MiniLisp
