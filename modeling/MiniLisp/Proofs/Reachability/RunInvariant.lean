import MiniLisp.Proofs.Evaluation.Names
import MiniLisp.Proofs.Evaluation.Equations
import MiniLisp.Proofs.Reachability.Closures

/-!
Invariants of runs. A condition on expressions in their environments, on closures and on faults is kept by
every run if each kind of expression hands it on to its parts, lambdas make only closures that satisfy
it, and the bodies of such closures satisfy it when they are called (`RunInvariant.ensures_eval`).
-/

namespace MiniLisp

/-- The kinds of faults that calls and conditionals may end with, whatever the program. -/
def FaultKind.isRuntime : FaultKind → Bool
  | .type | .arity | .uncallable | .noTrueQuestion | .digits | .depth => true
  | _ => false

/-- Conditions that one step of evaluation hands on. -/
structure RunInvariant where
  /-- What holds of an expression and the environment that it is evaluated in. -/
  safe : Expr → Environment → Prop
  /-- What holds of the closures that are made or met. -/
  closure : ClosureCondition
  /-- The faults that a run may end with. -/
  allowed : Fault → Prop
  runtime {fault : Fault} (h : fault.kind.isRuntime = true) : allowed fault
  literal {text : String} {env : Environment} {fault : Fault} (h : safe (.literal text) env)
    (hfault : env.resolve text = .error fault) : allowed fault
  identifier {name : String} {env : Environment} {fault : Fault} (h : safe (.identifier name) env)
    (hfault : env.lookup name = .error fault) : allowed fault
  quote {d : Expr} {env : Environment} {room : Headroom} {fault : Fault} (h : safe (.quote d) env)
    (hfault : d.datum room = .error fault) : allowed fault
  empty {env : Environment} (h : safe .empty env) : allowed .emptyEvaluated
  branch {question answer : Expr} {env : Environment} (h : safe (.branch question answer) env) :
    allowed (.unevaluable (.branch question answer))
  cond {branches : List (Expr × Expr)} {b : Expr × Expr} {env : Environment}
    (h : safe (.cond branches) env) (hb : b ∈ branches) : safe b.1 env ∧ safe b.2 env
  head {func : Expr} {args : List Expr} {env : Environment} (h : safe (.app func args) env) :
    safe func env
  arg {func a : Expr} {args : List Expr} {env : Environment} (h : safe (.app func args) env)
    (ha : a ∈ args) : safe a env
  lambda {params : List String} {body : Expr} {env : Environment}
    (h : safe (.lambda params body) env) (cell : Nat) : closure cell params body env
  call {cell : Nat} {params : List String} {body : Expr} {env : Environment} {args : List Value}
    (h : closure cell params body env) (count : args.length = params.length) :
    safe body (env.extend (params.zip args))

/-- A value that an atom resolves to is bound in the environment or has no closure in it. -/
theorem Resolves.allClosures {P : ClosureCondition} {env : Environment} {text : String} {v : Value}
    (h : Resolves env text (.ok v)) (henv : env.AllClosures P) : v.AllClosures P := by
  cases h with
  | bound hbinds => exact henv.get? (binds_iff.1 hbinds)
  | integer => exact Value.allClosures_int _
  | isTrue => exact Value.allClosures_bool _
  | isFalse => exact Value.allClosures_bool _
  | primitive => exact Value.allClosures_primitive _

namespace Environment.AllClosures

variable {P : ClosureCondition} {env : Environment} {v : Value}

theorem resolve (h : env.AllClosures P) {text : String} (hv : env.resolve text = .ok v) :
    v.AllClosures P := by
  have hresolves := resolves_resolve env text
  rw [hv] at hresolves
  exact hresolves.allClosures h

theorem lookup (h : env.AllClosures P) {name : String} (hv : env.lookup name = .ok v) :
    v.AllClosures P := by
  cases hget : env.get? name with
  | none => rw [lookup_of_lacks (lacks_iff.2 hget)] at hv; cases hv
  | some w =>
    rw [lookup_of_binds (binds_iff.2 hget)] at hv
    cases hv
    exact h.get? hget

end Environment.AllClosures

/-! ## Calls -/

section

variable {P : ClosureCondition} {allowed : Fault → Prop}
  (runtime : ∀ fault : Fault, fault.kind.isRuntime = true → allowed fault)
include runtime

theorem ensures_report {good : Value → Prop} {frames needed : Nat} {fault : Fault}
    (h : allowed fault) :
    Ensures good allowed (throw ((Headroom.frames frames).report needed fault)) := by
  unfold Headroom.report
  by_cases hroom : (Headroom.frames frames).holds needed = true
  · rw [if_pos hroom]
    exact .throw h
  · rw [if_neg hroom]
    exact .throw (runtime .outOfFrames rfl)

/-- A fault of a runtime kind that shows a text: reported, or replaced by the digit limit. -/
theorem ensures_showing {good : Value → Prop} {frames needed : Nat} {fault : String → Fault}
    (h : ∀ shown, (fault shown).kind.isRuntime = true) (text : Except DigitLimit String) :
    Ensures good allowed (throw ((Headroom.frames frames).report needed (.showing fault text))) := by
  apply ensures_report runtime
  cases text with
  | ok shown => exact runtime _ (h shown)
  | error limit => exact runtime _ rfl

/-- The closures in what an operation comes to are those of its arguments. -/
theorem Primitive.ensures_call {frames : Nat} {op : Primitive} {args : List Value}
    (hargs : ∀ v ∈ args, v.AllClosures P) :
    Ensures (Value.AllClosures P) allowed (op.call frames args) := by
  induction op, args using Primitive.callCases with
  | cons head tail =>
    rw [call_cons]
    intro next
    have hhead := hargs head (by simp)
    have htail := hargs tail (by simp)
    exact Value.allClosures_pair.2 ⟨hhead, htail⟩
  | cdr cell head tail =>
    rw [call_cdr_pair]
    have hpair := hargs (.pair cell head tail) (by simp)
    exact .pure (Value.allClosures_pair.1 hpair).2
  | notPair v other =>
    rw [call_cdr_other _ other]
    exact ensures_showing runtime (fun _ => rfl) _
  | eq a b =>
    rw [call_eq]
    by_cases hframes : a.comparisonFrames b ≤ frames
    · rw [if_pos hframes]
      exact .pure (Value.allClosures_bool _)
    · rw [if_neg hframes]
      exact .throw (runtime _ rfl)
  | test op f v hf =>
    rw [call_test _ hf]
    exact .pure (Value.allClosures_bool _)
  | number op f n hf =>
    rw [call_number _ hf]
    refine .pure ?_
    cases op <;> cases hf <;> simp
  | notNumber op f v hf other =>
    rw [call_notNumber _ hf other]
    exact ensures_showing runtime (fun _ => rfl) _
  | count op args hcount =>
    rw [call_count _ hcount]
    exact .throw (runtime _ rfl)

end

/-! ## Runs -/

namespace RunInvariant

variable (I : RunInvariant)

/-- The run ends with a value whose closures satisfy the condition, or with an allowed fault. -/
def Ensured (act : EvalM Value) : Prop :=
  Ensures (Value.AllClosures I.closure) I.allowed act

variable {I}

variable (I) in
/-- With so many frames, evaluation and application keep the invariant. -/
structure KeptBy (frames : Nat) : Prop where
  eval {e : Expr} {env : Environment} (he : I.safe e env) (henv : env.AllClosures I.closure) :
    I.Ensured (eval frames e env)
  part {e : Expr} {env : Environment} (he : I.safe e env) (henv : env.AllClosures I.closure) :
    I.Ensured (evalPart frames e env)
  apply {callee : Value} {args : List Value} (hcallee : callee.AllClosures I.closure)
    (hargs : ∀ v ∈ args, v.AllClosures I.closure) : I.Ensured (apply frames callee args)

namespace KeptBy

variable {frames : Nat} (ih : I.KeptBy frames)
include ih

theorem branches {whole rest : List (Expr × Expr)} {env : Environment}
    (hrest : ∀ b ∈ rest, I.safe b.1 env ∧ I.safe b.2 env) (henv : env.AllClosures I.closure) :
    I.Ensured (evalBranches frames whole env rest) := by
  induction rest with
  | nil => exact ensures_report (fun _ => I.runtime) (I.runtime rfl)
  | cons b rest ihrest =>
    obtain ⟨hb, hrest⟩ := List.forall_mem_cons.1 hrest
    rw [evalBranches]
    refine .bind (ih.part hb.1 henv) fun v _ => ?_
    by_cases hv : v.isTrue = true
    · rw [if_pos hv]
      exact ih.part hb.2 henv
    · rw [if_neg hv]
      exact ihrest hrest

theorem eval_succ {e : Expr} {env : Environment} (he : I.safe e env)
    (henv : env.AllClosures I.closure) : I.Ensured (MiniLisp.eval (frames + 1) e env) := by
  cases e with
  | literal text =>
    rw [eval_literal]
    exact .lift (fun v hv => henv.resolve hv) fun fault hfault => I.literal he hfault
  | identifier name =>
    rw [eval_identifier]
    exact .lift (fun v hv => henv.lookup hv) fun fault hfault => I.identifier he hfault
  | quote d =>
    rw [eval_quote]
    refine .bind (.lift (fun _ _ => trivial) fun fault hfault => I.quote he hfault) ?_
    exact fun found _ next => found.allClosures_place next
  | branch question answer =>
    rw [eval_branch]
    exact ensures_report (fun _ => I.runtime) (I.branch he)
  | cond branches =>
    rw [eval_cond]
    exact ih.branches (fun b hb => I.cond he hb) henv
  | lambda params body =>
    rw [eval_lambda]
    -- The only step that makes a closure; what it captures is the environment itself.
    intro next
    exact Value.allClosures_closure.2 ⟨I.lambda he next, henv⟩
  | app func args =>
    rw [eval_app]
    refine .bind (ih.eval (I.head he) henv) fun head hhead => ?_
    refine .bind (.mapM fun a ha => ih.part (I.arg he ha) henv) fun values hvalues => ?_
    exact ih.apply hhead hvalues
  | empty =>
    rw [eval_empty]
    exact .throw (I.empty he)

theorem apply_succ {callee : Value} {args : List Value} (hcallee : callee.AllClosures I.closure)
    (hargs : ∀ v ∈ args, v.AllClosures I.closure) :
    I.Ensured (MiniLisp.apply (frames + 1) callee args) := by
  cases callee with
  | primitive op =>
    rw [apply_primitive]
    exact Primitive.ensures_call (fun _ => I.runtime) hargs
  | closure cell params body env =>
    -- The body is no part of the expression that is run: that it is safe comes with the closure.
    obtain ⟨hclosure, henv⟩ := Value.allClosures_closure.1 hcallee
    rw [apply_closure, Environment.bindArgs]
    by_cases hcount : args.length = params.length
    · rw [if_pos hcount]
      have hscope : Environment.AllClosures I.closure (Environment.extend env (params.zip args)) :=
        henv.extend fun b hb => hargs b.2 (List.of_mem_zip hb).2
      exact ih.part (I.call hclosure hcount) hscope
    · rw [if_neg hcount]
      exact .throw (I.runtime rfl)
  | _ =>
    rw [apply_uncallable _ rfl]
    exact ensures_showing (fun _ => I.runtime) (fun _ => rfl) _

end KeptBy

theorem keptBy (I : RunInvariant) (frames : Nat) : I.KeptBy frames := by
  induction frames with
  | zero =>
    refine ⟨fun _ _ => ?_, fun _ _ => ?_, fun _ _ => ?_⟩
    · rw [eval_zero]; exact .throw (I.runtime rfl)
    · rw [evalPart_zero]; exact .throw (I.runtime rfl)
    · rw [apply_zero]; exact .throw (I.runtime rfl)
  | succ frames ih =>
    refine ⟨ih.eval_succ, fun he henv => ?_, ih.apply_succ⟩
    rw [evalPart_succ]
    exact ih.eval he henv

/-- A run from an expression and an environment that satisfy the conditions keeps them. -/
theorem ensures_eval (I : RunInvariant) (frames : Nat) {e : Expr} {env : Environment}
    (he : I.safe e env) (henv : env.AllClosures I.closure) :
    Ensures (Value.AllClosures I.closure) I.allowed (eval frames e env) :=
  (I.keptBy frames).eval he henv

theorem allClosures_of_eval {frames next m : Nat} {e : Expr} {env : Environment} {v : Value}
    (hrun : eval frames e env next = .ok v m) (he : I.safe e env) (henv : env.AllClosures I.closure) :
    v.AllClosures I.closure := by
  have hends := I.ensures_eval frames he henv next
  rwa [hrun] at hends

theorem allowed_of_eval {frames next m : Nat} {e : Expr} {env : Environment} {fault : Fault}
    (hrun : eval frames e env next = .error fault m) (he : I.safe e env)
    (henv : env.AllClosures I.closure) : I.allowed fault := by
  have hends := I.ensures_eval frames he henv next
  rwa [hrun] at hends

end RunInvariant

end MiniLisp
