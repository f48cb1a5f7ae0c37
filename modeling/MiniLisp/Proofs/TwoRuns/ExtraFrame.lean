import MiniLisp.Proofs.Scopes.ResolvedNames
import MiniLisp.Proofs.TwoRuns.LexicalScope

/-!
An environment with and without a frame of new names in front. Values of runs in the two differ at most in
the environments that closures made in the runs have captured, and those differ at most by the frame;
what a program can tell of the values is the same. A name comes to the same in both environments, unless
the first gives it no meaning.
-/

namespace MiniLisp

/-- A frame in front of an environment in which its names mean nothing. -/
structure ExtraFrame where
  frame : Frame
  outer : Environment
  /-- The next free cell at the time when the frame is added. -/
  since : Nat
  isNew : ∀ name ∈ frame.names, ¬ outer.GivesMeaning (.literal name)

mutual

/-- Values that differ at most in what those closures have captured that were made since the frame was
added. -/
inductive Value.Widened (x : ExtraFrame) : Value → Value → Prop
  | same (v : Value) : Value.Widened x v v
  | pair {cell : Nat} {head head' tail tail' : Value} (hcell : x.since ≤ cell)
      (hhead : Value.Widened x head head') (htail : Value.Widened x tail tail') :
      Value.Widened x (.pair cell head tail) (.pair cell head' tail')
  | closure {cell : Nat} {params : List String} {body : Expr} {env env' : Environment}
      (hcell : x.since ≤ cell) (henv : Environment.Widened x env env') :
      Value.Widened x (.closure cell params body env) (.closure cell params body env')

/-- Environments that differ at most by the frame, which the second has where the first has the outer
environment, and by such values. -/
inductive Environment.Widened (x : ExtraFrame) : Environment → Environment → Prop
  | same (env : Environment) : Environment.Widened x env env
  | extra : Environment.Widened x x.outer (x.frame :: x.outer)
  | inner {frame frame' : Frame} {env env' : Environment} (hframe : Frame.Widened x frame frame')
      (henv : Environment.Widened x env env') :
      Environment.Widened x (frame :: env) (frame' :: env')

/-- Frames that bind the same names in the same order to such values. -/
inductive Frame.Widened (x : ExtraFrame) : Frame → Frame → Prop
  | nil : Frame.Widened x [] []
  | cons {name : String} {v v' : Value} {rest rest' : Frame} (hvalue : Value.Widened x v v')
      (hrest : Frame.Widened x rest rest') :
      Frame.Widened x ((name, v) :: rest) ((name, v') :: rest')

end

/-- Two runs of one expression, where nothing is asked of the second if the first reports an unbound
name. -/
def sameUnlessUnbound (since : Nat) : Likeness :=
  { sameExpression since with excused := fun fault => fault.kind = .unbound }

/-! ## Lookups -/

variable {x : ExtraFrame}

theorem Value.Widened.refl_option : ∀ found : Option Value, Option.Rel (Value.Widened x) found found
  | none => .none
  | some v => .some (.same v)

theorem Frame.Widened.get? : ∀ {frame frame' : Frame}, Frame.Widened x frame frame' →
    ∀ name, Option.Rel (Value.Widened x) (frame.get? name) (frame'.get? name)
  | _, _, .nil, _ => .none
  | (bound, _) :: _, _ :: _, .cons hvalue hrest, name => by
    rw [Frame.get?_cons, Frame.get?_cons]
    by_cases hname : name = bound
    · rw [if_pos hname, if_pos hname]
      exact .some hvalue
    · rw [if_neg hname, if_neg hname]
      exact hrest.get? name

/-- A name is bound alike in both environments, or the first does not bind it and it is one of the
frame's. -/
theorem Environment.Widened.get? : ∀ {env env' : Environment}, Environment.Widened x env env' →
    ∀ name, Option.Rel (Value.Widened x) (env.get? name) (env'.get? name) ∨
      env.get? name = none ∧ name ∈ x.frame.names
  | _, _, .same _, _ => .inl (Value.Widened.refl_option _)
  | _, _, .extra, name => by
    rw [Environment.get?_cons]
    cases hget : x.frame.get? name with
    | none =>
      rw [Option.none_or]
      exact .inl (Value.Widened.refl_option _)
    | some v =>
      have hname := Frame.mem_names_of_get? hget
      exact .inr ⟨get?_of_meaningless (x.isNew name hname), hname⟩
  | frame :: _, frame' :: _, .inner hframe henv, name => by
    have hbound := hframe.get? name
    have houter := henv.get? name
    rw [Environment.get?_cons, Environment.get?_cons]
    generalize frame.get? name = found at hbound ⊢
    generalize frame'.get? name = found' at hbound ⊢
    cases hbound with
    | some hvalue => exact .inl (.some hvalue)
    | none => exact houter

/-! ## Scopes of calls -/

theorem Frame.Widened.insert (name : String) {v w : Value} (hvalue : Value.Widened x v w) :
    ∀ {frame frame' : Frame}, Frame.Widened x frame frame' →
      Frame.Widened x (frame.insert name v) (frame'.insert name w)
  | _, _, .nil => .cons hvalue .nil
  | (bound, _) :: _, _ :: _, .cons hfirst hrest => by
    rw [Frame.insert, Frame.insert]
    by_cases hname : bound = name
    · rw [if_pos hname, if_pos hname]
      exact .cons hvalue hrest
    · rw [if_neg hname, if_neg hname]
      exact .cons hfirst (hrest.insert name hvalue)

theorem Frame.Widened.ofBindings {params : List String} {args args' : List Value}
    (hargs : List.Forall₂ (Value.Widened x) args args') :
    Frame.Widened x (Frame.ofBindings (params.zip args)) (Frame.ofBindings (params.zip args')) := by
  -- The arguments are bound one by one, in a frame that has those before them.
  suffices h : ∀ {frame frame' : Frame}, Frame.Widened x frame frame' →
      Frame.Widened x ((params.zip args).foldl (fun frame b => frame.insert b.1 b.2) frame)
        ((params.zip args').foldl (fun frame b => frame.insert b.1 b.2) frame') from h .nil
  induction hargs generalizing params with
  | nil => simp
  | cons hvalue _ ih =>
    intro frame frame' hframe
    cases params with
    | nil => exact hframe
    | cons name params => exact ih (hframe.insert name hvalue)

theorem Environment.Widened.extend {env env' : Environment} (h : Environment.Widened x env env')
    (params : List String) {args args' : List Value}
    (hargs : List.Forall₂ (Value.Widened x) args args') :
    Environment.Widened x (env.extend (params.zip args)) (env'.extend (params.zip args')) :=
  .inner (.ofBindings hargs) h

/-! ## What programs can tell -/

/-- Environments with and without the frame agree on every atom that the first gives a meaning. -/
theorem Environment.Widened.agrees {env env' : Environment} (h : Environment.Widened x env env')
    (hvalues : ∀ name v w, env.get? name = some v → Value.Widened x v w →
      (sameUnlessUnbound x.since).Like v w) :
    (sameUnlessUnbound x.since).Agrees Eq env env' := by
  constructor
  · rintro a _ rfl
    rcases h.get? a.name with hbound | ⟨hnone, hname⟩
    · generalize env.get? a.name = found at hbound ⊢
      generalize env'.get? a.name = found' at hbound ⊢
      cases hbound with
      | some => exact .bound
      | none => exact .free rfl
    · rw [hnone]
      exact .excused (valueOf_of_meaningless (x.isNew a.name hname)) rfl
  · rintro a _ v w rfl hv hw
    rcases h.get? a.name with hbound | ⟨hnone, -⟩
    · rw [hv, hw] at hbound
      cases hbound with
      | some hvalue => exact hvalues a.name v w hv hvalue
    · rw [hnone] at hv
      cases hv

theorem Value.Widened.toLike {v w : Value} (h : Value.Widened x v w) :
    (sameUnlessUnbound x.since).Like v w := by
  induction v generalizing w with
  | pair cell head tail ihhead ihtail =>
    cases h with
    | same => exact .kept (Value.allCells_of_forall (fun _ => trivial) _)
    | pair hcell hhead htail => exact .pair ⟨rfl, hcell⟩ (ihhead hhead) (ihtail htail)
  | closure cell params body env ih =>
    cases h with
    | same => exact .kept (Value.allCells_of_forall (fun _ => trivial) _)
    | closure hcell henv =>
      have hagrees := henv.agrees fun name v w hv hvalue => by
        obtain ⟨frame, hframe, hget⟩ := List.exists_of_findSome?_eq_some hv
        exact ih frame hframe _ (Frame.mem_of_get? hget) hvalue
      have hbody : (sameUnlessUnbound x.since).Matches (Likeness.under params params Eq) body body :=
        .refl body fun a _ => ⟨rfl, fun _ => rfl⟩
      exact .closure ⟨rfl, hcell⟩ rfl rfl hbody (fun _ _ => hagrees.names)
        fun _ _ _ _ => hagrees.values
  | _ =>
    cases h with
    | same => exact .plain rfl

end MiniLisp
