import Mathlib.Order.Filter.AtTopBot.Basic
import MiniLisp.Proofs.Evaluation.Headroom

/-!
Runs with enough frames. A run that depends on a number of frames settles on an outcome if it comes to it
with all large enough numbers. The rules here speak of sequences of runs, so that proofs about
evaluation without a limit name no count of frames.
-/

namespace MiniLisp

open Filter

variable {α β : Type}

/-- An outcome other than running out of frames. -/
def Finished : Outcome α → Prop
  | .ok _ _ => True
  | .error fault _ => fault ≠ .outOfFrames

/-- A run that depends on a number of frames comes to the finished outcome with all large enough
numbers. -/
structure Settles (run : Nat → Outcome α) (o : Outcome α) : Prop where
  finished : Finished o
  eventually : ∀ᶠ frames in atTop, run frames = o

namespace Settles

theorem const {o : Outcome α} (h : Finished o) : Settles (fun _ => o) o :=
  ⟨h, .of_forall fun _ => rfl⟩

theorem of_succ {run : Nat → Outcome α} {o : Outcome α}
    (h : Settles (fun frames => run (frames + 1)) o) : Settles run o := by
  refine ⟨h.finished, ?_⟩
  -- All numbers above the least one for `frames + 1` have a predecessor that is large enough.
  obtain ⟨least, hleast⟩ := eventually_atTop.1 h.eventually
  filter_upwards [eventually_gt_atTop least] with n hn
  have hrun := hleast (n - 1) (by omega)
  rwa [Nat.sub_add_cancel (by omega)] at hrun

theorem unique {run : Nat → Outcome α} {o o' : Outcome α} (h : Settles run o)
    (h' : Settles run o') : o = o' := by
  obtain ⟨n, hn, hn'⟩ := (h.eventually.and h'.eventually).exists
  exact hn.symm.trans hn'

theorem report {needed next : Nat} {fault : Fault} (h : fault ≠ .outOfFrames) :
    Settles (fun frames => .error ((Headroom.frames frames).report needed fault) next : Nat → Outcome α)
      (.error fault next) := by
  refine ⟨h, ?_⟩
  filter_upwards [eventually_ge_atTop needed] with n hn
  rw [Headroom.report_of_le hn]

variable {act : Nat → EvalM α} {rest : Nat → α → EvalM β} {next m : Nat}

theorem bind_ok {a : α} {o : Outcome β} (h : Settles (fun frames => act frames next) (.ok a m))
    (hrest : Settles (fun frames => rest frames a m) o) :
    Settles (fun frames => (act frames >>= rest frames) next) o := by
  refine ⟨hrest.finished, ?_⟩
  filter_upwards [h.eventually, hrest.eventually] with n hact ho
  rw [EvalM.bind_run_ok hact, ho]

theorem bind_error {fault : Fault} (h : Settles (fun frames => act frames next) (.error fault m)) :
    Settles (fun frames => (act frames >>= rest frames) next) (.error fault m : Outcome β) := by
  refine ⟨h.finished, ?_⟩
  filter_upwards [h.eventually] with n hact
  exact EvalM.bind_run_error hact

end Settles

theorem Graded.settles_ok {step : Headroom → Except Fault α} (h : Graded step) {a : α}
    (hstep : step .unlimited = .ok a) (next : Nat) :
    Settles (fun frames => (liftM (step (.frames frames)) : EvalM α) next) (.ok a next) := by
  refine ⟨trivial, ?_⟩
  filter_upwards [h.eventually] with n hn
  rw [hn, hstep, EvalM.lift_ok_run]

theorem Graded.settles_error {step : Headroom → Except Fault α} (h : Graded step)
    {fault : Fault} (hstep : step .unlimited = .error fault) (next : Nat) :
    Settles (fun frames => (liftM (step (.frames frames)) : EvalM α) next) (.error fault next) := by
  refine ⟨fun hout => h.finishes (by rw [hstep, hout]), ?_⟩
  filter_upwards [h.eventually] with n hn
  rw [hn, hstep, EvalM.lift_error_run]

end MiniLisp
