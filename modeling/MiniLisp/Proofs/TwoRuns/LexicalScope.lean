import MiniLisp.Proofs.Evaluation.Agreement
import MiniLisp.Proofs.TwoRuns.Simulation

/-!
Lexical scope. What an expression comes to depends on its environment only through its free names: in
environments that bind those alike it comes to the same outcome, except that closures made in the two
runs may have captured different environments, which again bind alike the free names of their lambdas.
-/

namespace MiniLisp

/-- Values that differ at most in what those closures have captured that were made in cells from a counter
on. What these have captured binds the free names of their lambda to values that differ so. -/
inductive SameButScopes (since : Nat) : Value → Value → Prop
  | same (v : Value) : SameButScopes since v v
  | pair {cell : Nat} {head head' tail tail' : Value} (hcell : since ≤ cell)
      (hhead : SameButScopes since head head') (htail : SameButScopes since tail tail') :
      SameButScopes since (.pair cell head tail) (.pair cell head' tail')
  | closure {cell : Nat} {params : List String} {body : Expr} {env env' : Environment}
      (hcell : since ≤ cell)
      (hbound : ∀ name ∈ (Expr.lambda params body).freeNames,
        (env.get? name).isSome = (env'.get? name).isSome)
      (hvalues : ∀ name ∈ (Expr.lambda params body).freeNames, ∀ v w, env.get? name = some v →
        env'.get? name = some w → SameButScopes since v w) :
      SameButScopes since (.closure cell params body env) (.closure cell params body env')

/-- Values that a program and its user cannot tell apart: they differ so, have one kind and the same
texts, and equal the same values. -/
structure SameValue (since : Nat) (v w : Value) : Prop where
  scopes : SameButScopes since v w
  kind : v.kind = w.kind
  source : v.source = w.source
  debugForm : v.debugForm = w.debugForm
  equal {v' w' : Value} (h : SameButScopes since v' w') : v.isEqual v' = w.isEqual w'

/-- Outcomes of runs from one counter of cells: values that cannot be told apart, or faults of one kind
with one message. -/
inductive SameOutcome (since : Nat) : Outcome Value → Outcome Value → Prop
  | value {v w : Value} {m : Nat} (h : SameValue since v w) : SameOutcome since (.ok v m) (.ok w m)
  | fault {f g : Fault} {m : Nat} (kind : f.kind = g.kind) (message : f.message = g.message) :
      SameOutcome since (.error f m) (.error g m)

/-- Runs of one expression from one counter of cells, in environments that may differ. -/
def sameExpression (since : Nat) : Likeness where
  cells := Eq
  keeps _ := True
  made c d := c = d ∧ since ≤ c
  counters m n := m = n ∧ since ≤ m
  atoms := Eq
  binders := Eq
  alike := Eq
  sameTexts := True
  excused _ := False
  cells_iff := by rintro a b _ _ rfl rfl; rfl
  cells_of_keeps _ := rfl
  cells_of_made h := h.1
  made_of_counters h := h
  counters_succ := by
    rintro m _ ⟨rfl, h⟩
    exact ⟨rfl, Nat.le_succ_of_le h⟩
  atoms_refl _ := rfl
  binders_refl _ := rfl
  binders_length h := by rw [h]
  binders_eq _ h := h
  alike_refl _ := rfl
  alike_sourceFrames h := by rw [h]
  alike_debugFrames h := by rw [h]
  alike_source _ h := by rw [h]
  alike_branch _ h := by rw [h]

namespace SameButScopes

variable {since : Nat} {v w v' w' : Value}

theorem of_like (h : (sameExpression since).Like v w) : SameButScopes since v w := by
  induction h with
  | kept => exact .same _
  | pair hcell hhead htail ihhead ihtail =>
    obtain ⟨rfl, hle⟩ := hcell
    exact .pair hle ihhead ihtail
  | @closure c d params others body body' env env' R hcell hbinders halike hbody hnames hvalues ih =>
    obtain ⟨rfl, hle⟩ := hcell
    have hparams : params = others := hbinders
    have hbodies : body = body' := halike
    subst hparams
    subst hbodies
    -- Each free name of the lambda is that of an atom in its body, which corresponds to itself.
    have hfree : ∀ name ∈ (Expr.lambda params body).freeNames, ∃ a : Atom, a.name = name ∧ R a a := by
      intro name hname
      have hlambda : (sameExpression since).Matches R (.lambda params body) (.lambda params body) :=
        .lambda rfl rfl hbody
      obtain ⟨a, b, ha, hab, hR⟩ := hlambda.exists_atom name hname
      have hsame : a = b := hab
      subst hsame
      exact ⟨a, ha, hR⟩
    refine .closure hle (fun name hname => ?_) fun name hname v w hv hw => ?_
    · obtain ⟨a, rfl, hR⟩ := hfree name hname
      exact (hnames a a hR).isSome_eq fun _ hfault => hfault
    · obtain ⟨a, rfl, hR⟩ := hfree name hname
      exact ih a a v w hR hv hw

theorem toLike (h : SameButScopes since v w) : (sameExpression since).Like v w := by
  induction h with
  | same v => exact .kept (Value.allCells_of_forall (fun _ => trivial) v)
  | pair hcell _ _ ihhead ihtail => exact .pair ⟨rfl, hcell⟩ ihhead ihtail
  | @closure cell params body env env' hcell hbound _ ih =>
    -- In the body a parameter corresponds to itself by its slot, and a free name by being free.
    let R (a b : Atom) : Prop := a = b ∧ a.name ∈ (Expr.lambda params body).freeNames
    have hbody : (sameExpression since).Matches (Likeness.under params params R) body body := by
      refine .refl body fun a ha => ⟨rfl, fun hslot => ⟨rfl, ?_⟩⟩
      exact Expr.mem_freeNames_lambda.2 ⟨ha, slot_eq_none_iff.1 hslot⟩
    refine .closure ⟨rfl, hcell⟩ rfl rfl hbody ?_ ?_
    · rintro a _ ⟨rfl, ha⟩
      exact .of_isSome_eq a (hbound a.name ha)
    · rintro a _ v w ⟨rfl, ha⟩ hv hw
      exact ih a.name ha v w hv hw

theorem sameValue (h : SameButScopes since v w) : SameValue since v w where
  scopes := h
  kind := h.toLike.resembles.kind
  source := h.toLike.resembles.source.1.eq trivial
  debugForm := h.toLike.resembles.debugForm.eq trivial
  equal h' := h.toLike.resembles.isEqual h'.toLike.resembles

end SameButScopes

theorem sameOutcome_of_outcomes {since : Nat} {o o' : Outcome Value}
    (h : (sameExpression since).coupling.Outcomes (sameExpression since).Like o o') :
    SameOutcome since o o' ∧ (Finished o ↔ Finished o') := by
  cases h with
  | ok hvalue hcounters =>
    obtain ⟨rfl, -⟩ := hcounters
    exact ⟨.value (SameButScopes.of_like hvalue).sameValue, Iff.rfl⟩
  | error hfaults hcounters =>
    obtain ⟨rfl, -⟩ := hcounters
    exact ⟨.fault hfaults.kind (hfaults.message trivial), not_congr hfaults.outOfFrames⟩
  | excused hfault => exact hfault.elim

/-- One expression in two environments that bind its free names alike. -/
theorem outcomes_of_agreement {e : Expr} {env env' : Environment}
    (h : ∀ name ∈ e.freeNames, env.get? name = env'.get? name) (frames next : Nat) :
    SameOutcome next (eval frames e env next) (eval frames e env' next) ∧
      (Finished (eval frames e env next) ↔ Finished (eval frames e env' next)) := by
  let R (a b : Atom) : Prop := a = b ∧ a.name ∈ e.freeNames
  have hmatches : (sameExpression next).Matches R e e := .refl e fun a ha => ⟨rfl, ha⟩
  have hagrees : (sameExpression next).Agrees R env env' := by
    constructor
    · rintro a _ ⟨rfl, ha⟩
      exact .of_isSome_eq a (by rw [h a.name ha])
    · rintro a _ v w ⟨rfl, ha⟩ hv hw
      rw [← h a.name ha, hv] at hw
      cases hw
      exact (SameButScopes.same v).toLike
  have hruns := (sameExpression next).runs_eval frames hmatches hagrees
  exact sameOutcome_of_outcomes (hruns next next ⟨rfl, Nat.le_refl next⟩)

theorem endsWith_of_agreement {e : Expr} {env env' : Environment} {next : Nat} {o : Outcome Value}
    (h : ∀ name ∈ e.freeNames, env.get? name = env'.get? name) (hends : EndsWith e env next o) :
    ∃ o', EndsWith e env' next o' :=
  hends.transfer fun frames => (outcomes_of_agreement h frames next).2.1

/-- Lexical scope: in two environments that bind the free names of an expression alike it comes to the same
outcome, within any number of frames and without a limit. -/
theorem evaluation_is_lexically_scoped (e : Expr) (env env' : Environment)
    (h : ∀ name ∈ e.freeNames, env.get? name = env'.get? name) (next : Nat) :
    (∀ frames, SameOutcome next (eval frames e env next) (eval frames e env' next)) ∧
      ((∃ o, EndsWith e env next o) ↔ ∃ o, EndsWith e env' next o) ∧
      ∀ o o', EndsWith e env next o → EndsWith e env' next o' → SameOutcome next o o' := by
  refine ⟨fun frames => (outcomes_of_agreement h frames next).1, ⟨?_, ?_⟩, ?_⟩
  · rintro ⟨o, ho⟩
    exact endsWith_of_agreement h ho
  · rintro ⟨o, ho⟩
    exact endsWith_of_agreement (fun name hname => (h name hname).symm) ho
  · intro o o' ho ho'
    -- With enough frames for both, the outcomes are those of two runs within the same number.
    obtain ⟨frames, hframes, hframes'⟩ := (ho.eventually.and ho'.eventually).exists
    rw [← hframes, ← hframes']
    exact (outcomes_of_agreement h frames next).1

/-- A closure that has captured different environments, in which its free names mean the same. -/
theorem inner_lambda_is_lexically_scoped :
    let inner : Expr := .app (.literal "cons") [.literal "x", .literal "y"]
    let e : Expr := .app (.lambda ["x"] (.lambda ["z"] inner)) [.literal "2"]
    let env : Environment := [[("y", .int 1)]]
    let env' : Environment := [[("x", .int 9)], [("y", .int 1), ("z", .int 3)]]
    (∀ name ∈ e.freeNames, env.get? name = env'.get? name) ∧
      eval 9 e env 0 = .ok (.closure 1 ["z"] inner ([("x", .int 2)] :: env)) 2 ∧
      eval 9 e env' 0 = .ok (.closure 1 ["z"] inner ([("x", .int 2)] :: env')) 2 ∧
      SameOutcome 0 (eval 9 e env 0) (eval 9 e env' 0) := by
  intro inner e env env'
  have hagree : ∀ name ∈ e.freeNames, env.get? name = env'.get? name := by
    have hnames : e.freeNames = ["cons", "y", "2"] := by cbv
    rw [hnames]
    simp [env, env', Frame.get?_cons, Environment.get?]
  have hrun : eval 9 e env 0 = .ok (.closure 1 ["z"] inner ([("x", .int 2)] :: env)) 2 := by cbv
  have hrun' : eval 9 e env' 0 = .ok (.closure 1 ["z"] inner ([("x", .int 2)] :: env')) 2 := by cbv
  exact ⟨hagree, hrun, hrun', (evaluation_is_lexically_scoped e env env' hagree 0).1 9⟩

end MiniLisp
