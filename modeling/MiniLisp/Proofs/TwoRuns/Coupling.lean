import Mathlib.Data.List.Forall2
import MiniLisp.Proofs.Evaluation.Computation

/-!
Two runs side by side. The outcomes of both correspond if their results, their faults and their counters
of cells do, and the rules here put runs of sequences together from runs of their parts. Some faults
of the first run may be excused: after them nothing is asked of the second.
-/

namespace MiniLisp

variable {α β γ δ : Type}

/-- How the outcomes of two runs may correspond. -/
structure Coupling where
  /-- The counters of the two runs, at any time. -/
  counters : Nat → Nat → Prop
  /-- Faults that both runs may end with. -/
  faults : Fault → Fault → Prop
  /-- Faults of the first run after which nothing is asked of the second. -/
  excused : Fault → Prop

namespace Coupling

/-- The outcomes correspond, and their results in the given way. -/
inductive Outcomes (C : Coupling) (related : α → β → Prop) : Outcome α → Outcome β → Prop
  | ok {a : α} {b : β} {m n : Nat} (results : related a b) (counters : C.counters m n) :
      C.Outcomes related (.ok a m) (.ok b n)
  | error {f g : Fault} {m n : Nat} (faults : C.faults f g) (counters : C.counters m n) :
      C.Outcomes related (.error f m) (.error g n)
  | excused {f : Fault} {m : Nat} {o : Outcome β} (h : C.excused f) :
      C.Outcomes related (.error f m) o

/-- From counters that correspond, both computations come to outcomes that do. -/
def Runs (C : Coupling) (related : α → β → Prop) (first : EvalM α) (second : EvalM β) : Prop :=
  ∀ m n, C.counters m n → C.Outcomes related (first m) (second n)

variable {C : Coupling} {related : α → β → Prop}

theorem Runs.pure {a : α} {b : β} (h : related a b) :
    C.Runs related (Pure.pure a) (Pure.pure b) :=
  fun _ _ hc => .ok h hc

theorem Runs.throw {f g : Fault} (h : C.faults f g) :
    C.Runs related (throw f) (throw g) :=
  fun _ _ hc => .error h hc

theorem Runs.throw_excused {f : Fault} (h : C.excused f) (second : EvalM β) :
    C.Runs related (MonadExcept.throw f) second :=
  fun _ _ _ => .excused h

theorem Runs.bind {relatedRest : γ → δ → Prop} {first : EvalM α} {second : EvalM β}
    {firstRest : α → EvalM γ} {secondRest : β → EvalM δ} (h : C.Runs related first second)
    (hrest : ∀ a b, related a b → C.Runs relatedRest (firstRest a) (secondRest b)) :
    C.Runs relatedRest (first >>= firstRest) (second >>= secondRest) := by
  intro m n hc
  have houtcomes := h m n hc
  rw [EvalM.bind_run, EvalM.bind_run]
  generalize first m = o₁ at houtcomes ⊢
  generalize second n = o₂ at houtcomes ⊢
  cases houtcomes with
  | ok hab hc' => exact hrest _ _ hab _ _ hc'
  | error hf hc' => exact .error hf hc'
  | excused hf => exact .excused hf

theorem Runs.mapM {f : γ → EvalM α} {g : δ → EvalM β} {items : List γ} {others : List δ}
    (h : List.Forall₂ (fun c d => C.Runs related (f c) (g d)) items others) :
    C.Runs (List.Forall₂ related) (items.mapM f) (others.mapM g) := by
  induction h with
  | nil => exact .pure .nil
  | cons hitem _ ih =>
    rw [List.mapM_cons, List.mapM_cons]
    exact hitem.bind fun a b hab => ih.bind fun as bs habs => .pure (.cons hab habs)

end Coupling

end MiniLisp
