import Mathlib.Order.Filter.AtTopBot.Basic
import MiniLisp.Proofs.Evaluation.Equations

/-!
Steps in a headroom. More room never changes what a step comes to, unless the step ran out of frames, and
some number of frames is as good as unlimited room (`Graded`). The rules here give this for sequences
of steps; `Expr.datum_graded` gives it for quoted data.
-/

namespace MiniLisp

variable {α β : Type}

/-! ## Headroom -/

namespace Headroom

/-- Whatever fits into the one headroom fits into the other. -/
def NoLarger (room other : Headroom) : Prop :=
  ∀ needed, room.holds needed = true → other.holds needed = true

theorem noLarger_frames {n m : Nat} (h : n ≤ m) : NoLarger (.frames n) (.frames m) := by
  intro needed hn
  rw [holds_frames, decide_eq_true_eq] at hn ⊢
  omega

theorem noLarger_unlimited (room : Headroom) : NoLarger room .unlimited :=
  fun _ _ => rfl

theorem NoLarger.le {n m : Nat} (h : NoLarger (.frames n) (.frames m)) : n ≤ m := by
  have hn : decide (n ≤ m) = true := h n (decide_eq_true (Nat.le_refl n))
  exact of_decide_eq_true hn

theorem NoLarger.below {room other : Headroom} (h : NoLarger room other) (depth : Nat) :
    NoLarger (room.below depth) (other.below depth) := by
  cases other with
  | unlimited => exact noLarger_unlimited _
  | frames m =>
    cases room with
    | unlimited =>
      have hm := h (m + 1) rfl
      rw [holds_frames, decide_eq_true_eq] at hm
      omega
    | frames n => exact noLarger_frames (Nat.sub_le_sub_right h.le depth)

end Headroom

/-! ## Steps -/

/-- The second step comes to the same as the first, unless the first ran out of frames. -/
def Keeps (first second : Except Fault α) : Prop :=
  first = .error .outOfFrames ∨ second = first

/-- More room never changes what the step comes to, some number of frames is enough for it, and without a
limit frames do not run out. -/
structure Graded (step : Headroom → Except Fault α) : Prop where
  keeps : ∀ {room other : Headroom}, room.NoLarger other → Keeps (step room) (step other)
  finishes : step .unlimited ≠ .error .outOfFrames
  enough : ∃ n, step (.frames n) = step .unlimited

namespace Graded

theorem eq_unlimited_of_le {step : Headroom → Except Fault α} (h : Graded step) {n m : Nat}
    (hn : step (.frames n) = step .unlimited) (hle : n ≤ m) :
    step (.frames m) = step .unlimited := by
  rcases h.keeps (Headroom.noLarger_frames hle) with hout | hsame
  · exact absurd (hn.symm.trans hout) h.finishes
  · exact hsame.trans hn

theorem eventually {step : Headroom → Except Fault α} (h : Graded step) :
    ∀ᶠ n in Filter.atTop, step (.frames n) = step .unlimited := by
  obtain ⟨n, hn⟩ := h.enough
  filter_upwards [Filter.eventually_ge_atTop n] with m hm
  exact h.eq_unlimited_of_le hn hm

theorem eq_unlimited {step : Headroom → Except Fault α} (h : Graded step) (room : Headroom)
    (hout : step room ≠ .error .outOfFrames) : step .unlimited = step room :=
  (h.keeps (Headroom.noLarger_unlimited room)).resolve_left hout

theorem const {r : Except Fault α} (h : r ≠ .error .outOfFrames) : Graded fun _ => r :=
  ⟨fun _ => .inr rfl, h, 0, rfl⟩

theorem ok (a : α) : Graded fun _ => .ok a :=
  const (by simp)

theorem error {fault : Fault} (h : fault ≠ .outOfFrames) :
    Graded fun _ => (.error fault : Except Fault α) :=
  const fun hout => h (Except.error.inj hout)

theorem ofDigits (r : Except DigitLimit α) : Graded fun _ => Fault.ofDigits r := by
  cases r with
  | ok a => exact ok a
  | error limit => exact error (by simp)

theorem bind {first : Headroom → Except Fault α} {rest : Headroom → α → Except Fault β}
    (h : Graded first) (hrest : ∀ a, Graded fun room => rest room a) :
    Graded fun room => first room >>= rest room := by
  obtain ⟨n, hn⟩ := h.enough
  refine ⟨fun {room other} hroom => ?_, ?_, ?_⟩
  · rcases h.keeps hroom with hout | hsame
    · left
      rw [hout]
      rfl
    · rw [hsame]
      cases first room with
      | ok a => exact (hrest a).keeps hroom
      | error fault => exact .inr rfl
  · cases hfirst : first .unlimited with
    | ok a => exact (hrest a).finishes
    | error fault =>
      intro hout
      have hfault : fault = .outOfFrames := Except.error.inj hout
      exact h.finishes (by rw [hfirst, hfault])
  · cases hfirst : first .unlimited with
    | ok a =>
      -- Enough for both is the larger of what is enough for each.
      obtain ⟨m, hm⟩ := (hrest a).enough
      refine ⟨max n m, ?_⟩
      rw [h.eq_unlimited_of_le hn (Nat.le_max_left n m), hfirst]
      exact (hrest a).eq_unlimited_of_le hm (Nat.le_max_right n m)
    | error fault =>
      refine ⟨n, ?_⟩
      rw [hn, hfirst]
      rfl

theorem map {step : Headroom → Except Fault α} (h : Graded step) (f : α → β) :
    Graded fun room => f <$> step room := by
  have hbind : Graded fun room => step room >>= fun a => .ok (f a) := h.bind fun a => ok (f a)
  have heq : (fun room => f <$> step room) = fun room => step room >>= fun a => .ok (f a) := by
    funext room
    cases step room <;> rfl
  rw [heq]
  exact hbind

theorem mapM {f : Headroom → α → Except Fault β} (h : ∀ a, Graded fun room => f room a)
    (items : List α) : Graded fun room => items.mapM (f room) := by
  induction items with
  | nil => exact ok []
  | cons item items ih =>
    simp only [List.mapM_cons]
    exact (h item).bind fun b => ih.bind fun bs => ok (b :: bs)

theorem below {step : Headroom → Except Fault α} (h : Graded step) (depth : Nat) :
    Graded fun room => step (room.below depth) := by
  refine ⟨fun hroom => h.keeps (hroom.below depth), h.finishes, ?_⟩
  -- Further down there are `depth` frames fewer, so as many more are needed.
  obtain ⟨n, hn⟩ := h.enough
  refine ⟨n + depth, ?_⟩
  rw [Headroom.below_frames, Nat.add_sub_cancel, hn, Headroom.below_unlimited]

/-- A choice by whether so many frames fit, with a lack of frames if they do not. -/
theorem ite {r : Except Fault α} (h : r ≠ .error .outOfFrames) (needed : Nat) :
    Graded fun room => if room.holds needed then r else .error .outOfFrames := by
  refine ⟨fun {room other} hroom => ?_, h, needed, ?_⟩
  · by_cases hneeded : room.holds needed = true
    · right
      rw [if_pos hneeded, if_pos (hroom needed hneeded)]
    · left
      rw [if_neg hneeded]
  · rw [Headroom.holds_frames, if_pos (decide_eq_true (Nat.le_refl needed))]
    rfl

theorem enter : Graded Headroom.enter :=
  ite (by simp) 1

theorem report (needed : Nat) {fault : Fault} (h : fault ≠ .outOfFrames) :
    Graded fun room => (.error (room.report needed fault) : Except Fault α) := by
  have hite := ite (r := (.error fault : Except Fault α)) (fun hout => h (Except.error.inj hout))
    needed
  have heq : (fun room : Headroom => (.error (room.report needed fault) : Except Fault α)) =
      fun room => if room.holds needed then .error fault else .error .outOfFrames := by
    funext room
    exact apply_ite _ _ _ _
  rw [heq]
  exact hite

end Graded

/-! ## Quoted data -/

namespace Expr

open MiniLisp.Graded

-- By recursion on the expression; `below` counts the frames from a form down to its parts.
mutual

theorem datum_graded : ∀ e : Expr, Graded fun room => e.datum room
  | .literal text => by
    simp only [datum]
    exact enter.bind fun _ => ofDigits _
  | .identifier name => by
    simp only [datum]
    exact enter.bind fun _ => ok _
  | .empty => by
    simp only [datum]
    exact enter.bind fun _ => ok _
  | .app func args => by
    simp only [datum]
    exact enter.bind fun _ => ((datum_graded func).below 1).bind fun _ =>
      ((dataOf_graded args).below 2).bind fun _ => ok _
  | .quote d => by
    simp only [datum]
    exact enter.bind fun _ => ((datum_graded d).below 2).bind fun _ => ok _
  | .lambda params body => by
    simp only [datum]
    exact enter.bind fun _ => ((datum_graded body).below 2).bind fun _ => ok _
  | .cond branches => by
    simp only [datum]
    exact enter.bind fun _ => ((branchData_graded branches).below 2).bind fun _ => ok _
  | .branch question answer => by
    simp only [datum]
    exact enter.bind fun _ => report _ (by simp)

theorem dataOf_graded : ∀ es : List Expr, Graded fun room => dataOf room es
  | [] => by
    simp only [dataOf]
    exact ok _
  | e :: es => by
    simp only [dataOf]
    exact (datum_graded e).bind fun _ => (dataOf_graded es).bind fun _ => ok _

theorem branchData_graded :
    ∀ branches : List (Expr × Expr), Graded fun room => branchData room branches
  | [] => by
    simp only [branchData]
    exact ok _
  | (question, answer) :: branches => by
    simp only [branchData]
    exact (datum_graded question).bind fun _ => (datum_graded answer).bind fun _ =>
      (branchData_graded branches).bind fun _ => ok _

end

end Expr

end MiniLisp
