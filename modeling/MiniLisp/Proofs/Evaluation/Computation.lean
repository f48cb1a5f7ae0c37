import MiniLisp.Eval

/-!
Computations of evaluation, run from a counter of cells. The rules of this file say what a sequence of
computations does and what its runs guarantee (`Ensures`). A fault ends a sequence, and nothing
handles it.
-/

namespace MiniLisp

/-- What a computation comes to: a result or a fault, and the next free cell. -/
abbrev Outcome (α : Type) := EStateM.Result Fault Nat α

variable {α β : Type}

namespace EvalM

-- The rules of sequences hold with any state, so also where a run logs.

theorem bind_run {σ : Type} (act : EStateM Fault σ α) (rest : α → EStateM Fault σ β) (s : σ) :
    (act >>= rest) s = match act s with
      | .ok a t => rest a t
      | .error fault t => .error fault t := by
  show EStateM.bind act rest s = _
  rw [EStateM.bind]
  cases act s <;> rfl

theorem bind_run_ok {σ : Type} {act : EStateM Fault σ α} {rest : α → EStateM Fault σ β} {s t : σ}
    {a : α} (h : act s = .ok a t) : (act >>= rest) s = rest a t := by
  rw [bind_run, h]

theorem bind_run_error {σ : Type} {act : EStateM Fault σ α} {rest : α → EStateM Fault σ β} {s t : σ}
    {fault : Fault} (h : act s = .error fault t) : (act >>= rest) s = .error fault t := by
  rw [bind_run, h]

@[simp] theorem throw_run (fault : Fault) (next : Nat) :
    (throw fault : EvalM α) next = .error fault next := rfl

@[simp] theorem lift_ok_run (a : α) (next : Nat) :
    (liftM (.ok a : Except Fault α) : EvalM α) next = .ok a next := rfl

@[simp] theorem lift_error_run (fault : Fault) (next : Nat) :
    (liftM (.error fault : Except Fault α) : EvalM α) next = .error fault next := rfl

end EvalM

/-! ## What a run guarantees -/

/-- Every result of the computation is good and every fault of it allowed, whatever the counter. -/
def Ensures (good : α → Prop) (allowed : Fault → Prop) (act : EvalM α) : Prop :=
  ∀ next, match act next with
    | .ok a _ => good a
    | .error fault _ => allowed fault

namespace Ensures

variable {good : α → Prop} {allowed : Fault → Prop}

theorem pure {a : α} (h : good a) : Ensures good allowed (pure a) :=
  fun _ => h

theorem throw {fault : Fault} (h : allowed fault) : Ensures good allowed (throw fault) :=
  fun _ => h

theorem lift {r : Except Fault α} (hok : ∀ a, r = .ok a → good a)
    (herror : ∀ fault, r = .error fault → allowed fault) :
    Ensures good allowed (liftM r : EvalM α) := by
  intro next
  cases r with
  | ok a => exact hok a rfl
  | error fault => exact herror fault rfl

theorem bind {goodFirst : β → Prop} {act : EvalM β} {rest : β → EvalM α}
    (h : Ensures goodFirst allowed act) (hrest : ∀ b, goodFirst b → Ensures good allowed (rest b)) :
    Ensures good allowed (act >>= rest) := by
  intro next
  have hact := h next
  rw [EvalM.bind_run]
  cases hrun : act next with
  | ok b m => rw [hrun] at hact; exact hrest b hact m
  | error fault m => rw [hrun] at hact; exact hact

theorem mapM {f : β → EvalM α} {items : List β} (h : ∀ b ∈ items, Ensures good allowed (f b)) :
    Ensures (fun results : List α => ∀ a ∈ results, good a) allowed (items.mapM f) := by
  induction items with
  | nil => exact pure (fun _ hmem => nomatch hmem)
  | cons item items ih =>
    rw [List.mapM_cons]
    have hitems := ih fun b hb => h b (List.mem_cons_of_mem _ hb)
    refine bind (h item List.mem_cons_self) fun a ha => bind hitems fun as has => pure ?_
    exact List.forall_mem_cons.2 ⟨ha, has⟩

end Ensures

end MiniLisp
