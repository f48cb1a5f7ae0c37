import MiniLisp.Datum

/-!
Which kinds of faults the steps of building can fail with. The rules follow how steps are put together: a
sequence of steps fails only as one of them does.
-/

namespace MiniLisp

variable {α β : Type}

/-- The step fails only with faults of these kinds. -/
def FailsOnly (kinds : List FaultKind) (step : Except Fault α) : Prop :=
  ∀ fault, step = .error fault → fault.kind ∈ kinds

namespace FailsOnly

variable {kinds : List FaultKind}

theorem ok (a : α) : FailsOnly kinds (.ok a) :=
  fun _ h => nomatch h

theorem error {fault : Fault} (h : fault.kind ∈ kinds) :
    FailsOnly kinds (.error fault : Except Fault α) := by
  intro fault' hfault
  cases hfault
  exact h

theorem bind {step : Except Fault α} {rest : α → Except Fault β} (h : FailsOnly kinds step)
    (hrest : ∀ a, FailsOnly kinds (rest a)) : FailsOnly kinds (step >>= rest) := by
  cases step with
  | ok a => exact hrest a
  | error fault => exact error (h fault rfl)

theorem map {step : Except Fault α} (f : α → β) (h : FailsOnly kinds step) :
    FailsOnly kinds (f <$> step) := by
  cases step with
  | ok a => exact ok (f a)
  | error fault => exact error (h fault rfl)

theorem mapM {f : α → Except Fault β} (h : ∀ a, FailsOnly kinds (f a)) (items : List α) :
    FailsOnly kinds (items.mapM f) := by
  induction items with
  | nil => exact ok []
  | cons item items ih =>
    rw [List.mapM_cons]
    exact (h item).bind fun b => ih.bind fun bs => ok (b :: bs)

theorem ofDigits (h : FaultKind.digits ∈ kinds) (r : Except DigitLimit α) :
    FailsOnly kinds (Fault.ofDigits r) := by
  cases r with
  | ok a => exact ok a
  | error limit => exact error h

theorem enter (h : FaultKind.depth ∈ kinds) (room : Headroom) : FailsOnly kinds room.enter := by
  unfold Headroom.enter
  by_cases hroom : room.holds 1 = true
  · rw [if_pos hroom]
    exact ok ()
  · rw [if_neg hroom]
    exact error h

end FailsOnly

/-! ## Data -/

namespace Expr

open FailsOnly

mutual

/-- An expression is no data only if a numeral is too long, its nesting is too deep or it has a question
with its answer outside of a conditional. -/
theorem datum_failsOnly :
    ∀ (e : Expr) (room : Headroom), FailsOnly [.digits, .depth, .build] (e.datum room)
  | .literal text, room => by
    rw [datum]
    exact (enter (by decide) room).bind fun _ => ofDigits (by decide) _
  | .identifier name, room => by
    rw [datum]
    exact (enter (by decide) room).bind fun _ => ok _
  | .empty, room => by
    rw [datum]
    exact (enter (by decide) room).bind fun _ => ok _
  | .app func args, room => by
    rw [datum]
    exact (enter (by decide) room).bind fun _ => (datum_failsOnly func _).bind fun _ =>
      (dataOf_failsOnly args _).bind fun _ => ok _
  | .quote d, room => by
    rw [datum]
    exact (enter (by decide) room).bind fun _ => (datum_failsOnly d _).bind fun _ => ok _
  | .lambda params body, room => by
    rw [datum]
    exact (enter (by decide) room).bind fun _ => (datum_failsOnly body _).bind fun _ => ok _
  | .cond branches, room => by
    rw [datum]
    exact (enter (by decide) room).bind fun _ => (branchData_failsOnly branches _).bind fun _ => ok _
  | .branch question answer, room => by
    rw [datum]
    refine (enter (by decide) room).bind fun _ => error ?_
    unfold Headroom.report
    split <;> simp [Fault.kind]

theorem dataOf_failsOnly :
    ∀ (es : List Expr) (room : Headroom), FailsOnly [.digits, .depth, .build] (dataOf room es)
  | [], room => by
    rw [dataOf]
    exact ok _
  | e :: es, room => by
    rw [dataOf]
    exact (datum_failsOnly e room).bind fun _ => (dataOf_failsOnly es room).bind fun _ => ok _

theorem branchData_failsOnly : ∀ (branches : List (Expr × Expr)) (room : Headroom),
    FailsOnly [.digits, .depth, .build] (branchData room branches)
  | [], room => by
    rw [branchData]
    exact ok _
  | (question, answer) :: branches, room => by
    rw [branchData]
    exact (datum_failsOnly question room).bind fun _ => (datum_failsOnly answer room).bind fun _ =>
      (branchData_failsOnly branches room).bind fun _ => ok _

end

end Expr

end MiniLisp
