import Mathlib.Data.List.Forall2
import MiniLisp.Proofs.Reachability.Closures

/-!
Environments of the same shape: their frames bind the same names in the same order, to values that are
related. Lookups in them and the scopes of calls are related then, whatever the relation of values.
-/

namespace MiniLisp

/-- Frames that bind the same names in the same order to related values. -/
inductive Frame.Related (R : Value → Value → Prop) : Frame → Frame → Prop
  | nil : Frame.Related R [] []
  | cons {name : String} {v v' : Value} {rest rest' : Frame} (hvalue : R v v')
      (hrest : Frame.Related R rest rest') : Frame.Related R ((name, v) :: rest) ((name, v') :: rest')

/-- Environments with such frames. -/
inductive Environment.Related (R : Value → Value → Prop) : Environment → Environment → Prop
  | nil : Environment.Related R [] []
  | cons {frame frame' : Frame} {env env' : Environment} (hframe : Frame.Related R frame frame')
      (henv : Environment.Related R env env') : Environment.Related R (frame :: env) (frame' :: env')

variable {R : Value → Value → Prop}

/-! ## Frames -/

namespace Frame.Related

theorem get? {frame frame' : Frame} (h : Frame.Related R frame frame') (name : String) :
    Option.Rel R (frame.get? name) (frame'.get? name) := by
  induction h with
  | nil => exact .none
  | @cons bound v v' rest rest' hvalue _ ih =>
    rw [Frame.get?_cons, Frame.get?_cons]
    by_cases hname : name = bound
    · rw [if_pos hname, if_pos hname]
      exact .some hvalue
    · rw [if_neg hname, if_neg hname]
      exact ih

theorem insert {frame frame' : Frame} (h : Frame.Related R frame frame') (name : String) {v w : Value}
    (hvalue : R v w) : Frame.Related R (frame.insert name v) (frame'.insert name w) := by
  induction h with
  | nil => exact .cons hvalue .nil
  | @cons bound _ _ _ _ hfirst hrest ih =>
    rw [Frame.insert, Frame.insert]
    by_cases hname : bound = name
    · rw [if_pos hname, if_pos hname]
      exact .cons hvalue hrest
    · rw [if_neg hname, if_neg hname]
      exact .cons hfirst ih

/-- The frames of two calls with related arguments. -/
theorem ofBindings (params : List String) {args args' : List Value} (hargs : List.Forall₂ R args args') :
    Frame.Related R (Frame.ofBindings (params.zip args)) (Frame.ofBindings (params.zip args')) := by
  -- The arguments are bound one by one, in a frame that has those before them.
  suffices h : ∀ {frame frame' : Frame}, Frame.Related R frame frame' →
      Frame.Related R ((params.zip args).foldl (fun frame b => frame.insert b.1 b.2) frame)
        ((params.zip args').foldl (fun frame b => frame.insert b.1 b.2) frame') from h .nil
  induction hargs generalizing params with
  | nil => simp
  | cons hvalue _ ih =>
    intro frame frame' hframe
    cases params with
    | nil => exact hframe
    | cons name params => exact ih params (hframe.insert name hvalue)

theorem refl {frame : Frame} (h : ∀ binding ∈ frame, R binding.2 binding.2) :
    Frame.Related R frame frame := by
  induction frame with
  | nil => exact .nil
  | cons binding rest ih =>
    obtain ⟨hbinding, hrest⟩ := List.forall_mem_cons.1 h
    exact .cons hbinding (ih hrest)

theorem imp {S : Value → Value → Prop} {frame frame' : Frame} (h : Frame.Related R frame frame')
    (himp : ∀ binding ∈ frame, ∀ w, R binding.2 w → S binding.2 w) :
    Frame.Related S frame frame' := by
  induction h with
  | nil => exact .nil
  | cons hvalue _ ih =>
    obtain ⟨hfirst, hrest⟩ := List.forall_mem_cons.1 himp
    exact .cons (hfirst _ hvalue) (ih hrest)

end Frame.Related

/-! ## Environments -/

namespace Environment.Related

theorem get? {env env' : Environment} (h : Environment.Related R env env') (name : String) :
    Option.Rel R (env.get? name) (env'.get? name) := by
  induction h with
  | nil => exact .none
  | @cons frame frame' env env' hframe _ ih =>
    have hbound := hframe.get? name
    rw [Environment.get?_cons, Environment.get?_cons]
    generalize frame.get? name = found at hbound ⊢
    generalize frame'.get? name = found' at hbound ⊢
    cases hbound with
    | some hvalue => exact .some hvalue
    | none => exact ih

theorem extend {env env' : Environment} (h : Environment.Related R env env') (params : List String)
    {args args' : List Value} (hargs : List.Forall₂ R args args') :
    Environment.Related R (env.extend (params.zip args)) (env'.extend (params.zip args')) :=
  .cons (.ofBindings params hargs) h

theorem refl {env : Environment} (h : ∀ frame ∈ env, ∀ binding ∈ frame, R binding.2 binding.2) :
    Environment.Related R env env := by
  induction env with
  | nil => exact .nil
  | cons frame env ih =>
    obtain ⟨hframe, hrest⟩ := List.forall_mem_cons.1 h
    exact .cons (.refl hframe) (ih hrest)

end Environment.Related

end MiniLisp
