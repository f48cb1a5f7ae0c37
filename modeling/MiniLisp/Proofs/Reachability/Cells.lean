import MiniLisp.Proofs.Reachability.Closures

/-!
Cells of the pairs and closures that a program can get at from a value. `AllCells` says that each of them
satisfies a condition.
-/

namespace MiniLisp

namespace Value

/-- The cell of a pair or a closure. -/
def cell? : Value → Option Nat
  | .pair cell _ _ => some cell
  | .closure cell _ _ _ => some cell
  | _ => none

/-- The cell of every pair and closure that can be got at from the value satisfies the condition. -/
def AllCells (P : Nat → Prop) (v : Value) : Prop :=
  ∀ target cell, v.Reaches target → target.cell? = some cell → P cell

variable {P : Nat → Prop}

theorem allCells_of_cell?_eq_none {v : Value} (h : v.cell? = none) : v.AllCells P := by
  intro target cell hreaches hcell
  cases hreaches with
  | refl => rw [h] at hcell; cases hcell
  | head | tail => cases h
  | captured => cases h

theorem AllCells.cell {v : Value} (h : v.AllCells P) {cell : Nat} (hcell : v.cell? = some cell) :
    P cell :=
  h v cell (.refl v) hcell

theorem AllCells.head {cell : Nat} {head tail : Value} (h : (pair cell head tail).AllCells P) :
    head.AllCells P :=
  fun target c hreaches hcell => h target c (.head hreaches) hcell

theorem AllCells.tail {cell : Nat} {head tail : Value} (h : (pair cell head tail).AllCells P) :
    tail.AllCells P :=
  fun target c hreaches hcell => h target c (.tail hreaches) hcell

theorem AllCells.binding {cell : Nat} {params : List String} {body : Expr} {env : Environment}
    (h : (closure cell params body env).AllCells P) {frame : Frame} (hframe : frame ∈ env)
    {binding : String × Value} (hbinding : binding ∈ frame) : binding.2.AllCells P :=
  fun target c hreaches hcell => h target c (.captured hframe hbinding hreaches) hcell

theorem AllCells.captured {cell : Nat} {params : List String} {body : Expr} {env : Environment}
    (h : (closure cell params body env).AllCells P) {name : String} {v : Value}
    (hv : env.get? name = some v) : v.AllCells P := by
  obtain ⟨frame, hframe, hget⟩ := List.exists_of_findSome?_eq_some hv
  exact h.binding hframe (Frame.mem_of_get? hget)

theorem allCells_of_forall (h : ∀ cell, P cell) (v : Value) : v.AllCells P :=
  fun _ cell _ _ => h cell

theorem AllCells.imp {Q : Nat → Prop} {v : Value} (h : v.AllCells P) (himp : ∀ cell, P cell → Q cell) :
    v.AllCells Q :=
  fun target cell hreaches hcell => himp cell (h target cell hreaches hcell)

theorem AllCells.pair {cell : Nat} {head tail : Value} (hcell : P cell) (hhead : head.AllCells P)
    (htail : tail.AllCells P) : (Value.pair cell head tail).AllCells P := by
  intro target c hreaches hc
  cases hreaches with
  | refl =>
    cases hc
    exact hcell
  | head h => exact hhead target c h hc
  | tail h => exact htail target c h hc

theorem AllCells.closure {cell : Nat} {params : List String} {body : Expr} {env : Environment}
    (hcell : P cell) (henv : ∀ frame ∈ env, ∀ binding ∈ frame, binding.2.AllCells P) :
    (Value.closure cell params body env).AllCells P := by
  intro target c hreaches hc
  cases hreaches with
  | refl =>
    cases hc
    exact hcell
  | captured hframe hbinding h => exact henv _ hframe _ hbinding target c h hc

end Value

namespace Environment

/-- The values of the environment are made in cells before that one. -/
def IsBefore (env : Environment) (base : Nat) : Prop :=
  ∀ frame ∈ env, ∀ binding ∈ frame, Value.AllCells (· < base) binding.2

variable {env : Environment} {m n : Nat}

theorem isBefore_nil (n : Nat) : IsBefore [] n := by
  simp [IsBefore]

theorem IsBefore.mono (h : env.IsBefore m) (hle : m ≤ n) : env.IsBefore n :=
  fun frame hframe binding hbinding =>
    (h frame hframe binding hbinding).imp fun _ hlt => Nat.lt_of_lt_of_le hlt hle

theorem IsBefore.get? (h : env.IsBefore n) {name : String} {v : Value} (hv : env.get? name = some v) :
    v.AllCells (· < n) := by
  obtain ⟨frame, hframe, hget⟩ := List.exists_of_findSome?_eq_some hv
  exact h frame hframe _ (Frame.mem_of_get? hget)

theorem IsBefore.extend (h : env.IsBefore n) {bindings : List (String × Value)}
    (hbindings : ∀ b ∈ bindings, b.2.AllCells (· < n)) : (env.extend bindings).IsBefore n :=
  List.forall_mem_cons.2 ⟨fun b hb => hbindings b (Frame.mem_ofBindings hb), h⟩

end Environment

end MiniLisp
