import MiniLisp.Datum
import MiniLisp.Environment

/-!
Closures that a program can get at: those in a value, in the parts of its pairs, and in what its closures
have captured, and so on. `AllClosures` says that each of them satisfies a condition on its cell, its
parameters, its body and its captured environment.
-/

namespace MiniLisp

/-- The second value is the first, or a program can get at it from a part of the first. -/
inductive Value.Reaches : Value → Value → Prop
  | refl (v : Value) : Reaches v v
  | head {cell : Nat} {head tail target : Value} (h : Reaches head target) :
      Reaches (.pair cell head tail) target
  | tail {cell : Nat} {head tail target : Value} (h : Reaches tail target) :
      Reaches (.pair cell head tail) target
  | captured {cell : Nat} {params : List String} {body : Expr} {env : Environment} {frame : Frame}
      {binding : String × Value} {target : Value} (hframe : frame ∈ env) (hbinding : binding ∈ frame)
      (h : Reaches binding.2 target) : Reaches (.closure cell params body env) target

/-- A program can get at the value from what the environment binds. -/
def Environment.Reaches (env : Environment) (target : Value) : Prop :=
  ∃ frame ∈ env, ∃ binding ∈ frame, binding.2.Reaches target

/-- A condition on the cell, the parameters, the body and the captured environment of a closure. -/
abbrev ClosureCondition := Nat → List String → Expr → Environment → Prop

/-- Every closure that can be got at from the value satisfies the condition. -/
def Value.AllClosures (P : ClosureCondition) (v : Value) : Prop :=
  ∀ cell params body env, v.Reaches (.closure cell params body env) → P cell params body env

/-- Every closure that can be got at from the environment satisfies the condition. -/
def Environment.AllClosures (P : ClosureCondition) (env : Environment) : Prop :=
  ∀ cell params body captured, env.Reaches (.closure cell params body captured) →
    P cell params body captured

variable {P : ClosureCondition}

theorem Value.AllClosures.imp {Q : ClosureCondition} {v : Value} (h : v.AllClosures P)
    (himp : ∀ cell params body env, P cell params body env → Q cell params body env) :
    v.AllClosures Q :=
  fun cell params body env hreaches => himp _ _ _ _ (h cell params body env hreaches)

theorem Environment.AllClosures.imp {Q : ClosureCondition} {env : Environment} (h : env.AllClosures P)
    (himp : ∀ cell params body env, P cell params body env → Q cell params body env) :
    env.AllClosures Q :=
  fun cell params body captured hreaches => himp _ _ _ _ (h cell params body captured hreaches)

theorem Environment.allClosures_iff {env : Environment} :
    env.AllClosures P ↔ ∀ frame ∈ env, ∀ binding ∈ frame, Value.AllClosures P binding.2 := by
  constructor
  · intro h frame hframe binding hbinding cell params body captured hreaches
    exact h cell params body captured ⟨frame, hframe, binding, hbinding, hreaches⟩
  · rintro h cell params body captured ⟨frame, hframe, binding, hbinding, hreaches⟩
    exact h frame hframe binding hbinding cell params body captured hreaches

namespace Value

@[simp] theorem allClosures_pair {cell : Nat} {head tail : Value} :
    (pair cell head tail).AllClosures P ↔ head.AllClosures P ∧ tail.AllClosures P := by
  constructor
  · intro h
    exact ⟨fun c ps b env hreaches => h c ps b env (.head hreaches),
      fun c ps b env hreaches => h c ps b env (.tail hreaches)⟩
  · rintro ⟨hhead, htail⟩ c ps b env hreaches
    cases hreaches with
    | head h => exact hhead c ps b env h
    | tail h => exact htail c ps b env h

@[simp] theorem allClosures_closure {cell : Nat} {params : List String} {body : Expr}
    {env : Environment} :
    (closure cell params body env).AllClosures P ↔ P cell params body env ∧ env.AllClosures P := by
  constructor
  · intro h
    refine ⟨h cell params body env (.refl _), Environment.allClosures_iff.2 ?_⟩
    intro frame hframe binding hbinding c ps b captured hreaches
    exact h c ps b captured (.captured hframe hbinding hreaches)
  · rintro ⟨hself, henv⟩ c ps b captured hreaches
    cases hreaches with
    | refl => exact hself
    | captured hframe hbinding h =>
      exact Environment.allClosures_iff.1 henv _ hframe _ hbinding c ps b captured h

theorem allClosures_of_plain {v : Value} (hpair : v.isPair = false)
    (hclosure : ∀ cell params body env, v ≠ .closure cell params body env) : v.AllClosures P := by
  intro cell params body env hreaches
  cases hreaches with
  | refl => exact absurd rfl (hclosure cell params body env)
  | head | tail => cases hpair
  | captured => exact absurd rfl (hclosure _ _ _ _)

@[simp] theorem allClosures_int (n : Int) : (int n).AllClosures P :=
  allClosures_of_plain rfl (by simp)

@[simp] theorem allClosures_bool (b : Bool) : (bool b).AllClosures P :=
  allClosures_of_plain rfl (by simp)

@[simp] theorem allClosures_symbol (name : String) : (symbol name).AllClosures P :=
  allClosures_of_plain rfl (by simp)

@[simp] theorem allClosures_nil : nil.AllClosures P :=
  allClosures_of_plain rfl (by simp)

@[simp] theorem allClosures_primitive (op : Primitive) : (primitive op).AllClosures P :=
  allClosures_of_plain rfl (by simp)

end Value

/-! ## Data -/

namespace Datum

mutual

theorem allClosures_place : ∀ (d : Datum) (next : Nat), (d.place next).1.AllClosures P
  | .int n, _ => by rw [place]; exact Value.allClosures_int n
  | .bool b, _ => by rw [place]; exact Value.allClosures_bool b
  | .symbol name, _ => by rw [place]; exact Value.allClosures_symbol name
  | .list items, next => by rw [place]; exact allClosures_placeItems items next

theorem allClosures_placeItems :
    ∀ (items : List Datum) (next : Nat), (placeItems items next).1.AllClosures P
  | [], _ => by rw [placeItems]; exact Value.allClosures_nil
  | item :: items, next => by
    rw [placeItems]
    exact Value.allClosures_pair.2
      ⟨allClosures_place item next, allClosures_placeItems items (item.place next).2⟩

end

end Datum

/-! ## Environments -/

theorem Frame.mem_of_get? {frame : Frame} {name : String} {v : Value}
    (h : frame.get? name = some v) : (name, v) ∈ frame := by
  induction frame with
  | nil => cases h
  | cons binding frame ih =>
    obtain ⟨bound, w⟩ := binding
    rw [Frame.get?_cons] at h
    by_cases hname : name = bound
    · rw [if_pos hname] at h
      cases h
      rw [hname]
      exact List.mem_cons_self
    · rw [if_neg hname] at h
      exact List.mem_cons_of_mem _ (ih h)

theorem Frame.mem_names_of_get? {frame : Frame} {name : String} {v : Value}
    (h : frame.get? name = some v) : name ∈ frame.names :=
  List.mem_map_of_mem (Frame.mem_of_get? h)

theorem Frame.mem_insert {frame : Frame} {name : String} {v : Value} {binding : String × Value}
    (h : binding ∈ frame.insert name v) : binding = (name, v) ∨ binding ∈ frame := by
  fun_induction frame.insert name v with
  | case1 => exact .inl (List.mem_singleton.1 h)
  | case2 w rest =>
    rcases List.mem_cons.1 h with h | h
    · exact .inl h
    · exact .inr (List.mem_cons_of_mem _ h)
  | case3 n w rest hn ih =>
    rcases List.mem_cons.1 h with h | h
    · exact .inr (h ▸ List.mem_cons_self)
    · exact (ih h).imp_right (List.mem_cons_of_mem _)

theorem Frame.mem_ofBindings {bindings : List (String × Value)} {binding : String × Value}
    (h : binding ∈ Frame.ofBindings bindings) : binding ∈ bindings := by
  -- Bindings are inserted one by one, so the claim is about what comes after any frame so far.
  suffices hfold : ∀ (rest : List (String × Value)) (frame : Frame),
      binding ∈ rest.foldl (fun frame b => frame.insert b.1 b.2) frame →
        binding ∈ frame ∨ binding ∈ rest by
    exact (hfold bindings [] h).resolve_left (List.not_mem_nil)
  intro rest
  induction rest with
  | nil => exact fun frame hmem => .inl hmem
  | cons b rest ih =>
    intro frame hmem
    rcases ih _ hmem with hframe | hrest
    · rcases Frame.mem_insert hframe with rfl | hframe
      · exact .inr List.mem_cons_self
      · exact .inl hframe
    · exact .inr (List.mem_cons_of_mem _ hrest)

namespace Environment

theorem AllClosures.get? {env : Environment} (h : env.AllClosures P) {name : String} {v : Value}
    (hv : env.get? name = some v) : v.AllClosures P := by
  obtain ⟨frame, hframe, hget⟩ := List.exists_of_findSome?_eq_some hv
  exact allClosures_iff.1 h frame hframe _ (Frame.mem_of_get? hget)

theorem AllClosures.extend {env : Environment} (h : env.AllClosures P)
    {bindings : List (String × Value)} (hbindings : ∀ b ∈ bindings, b.2.AllClosures P) :
    (env.extend bindings).AllClosures P := by
  refine allClosures_iff.2 (List.forall_mem_cons.2 ⟨fun b hb => ?_, allClosures_iff.1 h⟩)
  exact hbindings b (Frame.mem_ofBindings hb)

end Environment

end MiniLisp
