import MiniLisp.Proofs.Building.Failures
import MiniLisp.Proofs.Evaluation.Agreement

/-!
Faults of depth. With no limit on frames nothing is too deep, so a run is too deep only where its frames
have run out, and then the fault says just that.
-/

namespace MiniLisp

variable {α : Type}

/-! ## Data in unlimited room -/

namespace Expr

open FailsOnly

mutual

theorem datum_unlimited_failsOnly :
    ∀ e : Expr, FailsOnly [.digits, .build] (e.datum .unlimited)
  | .literal text => by
    rw [datum]
    exact (ok ()).bind fun _ => ofDigits (by decide) _
  | .identifier name => by
    rw [datum]
    exact ok _
  | .empty => by
    rw [datum]
    exact ok _
  | .app func args => by
    rw [datum]
    exact (ok ()).bind fun _ => (datum_unlimited_failsOnly func).bind fun _ =>
      (dataOf_unlimited_failsOnly args).bind fun _ => ok _
  | .quote d => by
    rw [datum]
    exact (ok ()).bind fun _ => (datum_unlimited_failsOnly d).bind fun _ => ok _
  | .lambda params body => by
    rw [datum]
    exact (ok ()).bind fun _ => (datum_unlimited_failsOnly body).bind fun _ => ok _
  | .cond branches => by
    rw [datum]
    exact (ok ()).bind fun _ => (branchData_unlimited_failsOnly branches).bind fun _ => ok _
  | .branch question answer => by
    rw [datum]
    exact (ok ()).bind fun _ => error (by simp [Fault.kind])

theorem dataOf_unlimited_failsOnly :
    ∀ es : List Expr, FailsOnly [.digits, .build] (dataOf .unlimited es)
  | [] => by
    rw [dataOf]
    exact ok _
  | e :: es => by
    rw [dataOf]
    exact (datum_unlimited_failsOnly e).bind fun _ =>
      (dataOf_unlimited_failsOnly es).bind fun _ => ok _

theorem branchData_unlimited_failsOnly : ∀ branches : List (Expr × Expr),
    FailsOnly [.digits, .build] (branchData .unlimited branches)
  | [] => by
    rw [branchData]
    exact ok _
  | (question, answer) :: branches => by
    rw [branchData]
    exact (datum_unlimited_failsOnly question).bind fun _ =>
      (datum_unlimited_failsOnly answer).bind fun _ =>
        (branchData_unlimited_failsOnly branches).bind fun _ => ok _

end

end Expr

/-! ## Runs without a limit -/

/-- The outcome is no fault of depth. -/
def NotTooDeep : Outcome α → Prop
  | .ok _ _ => True
  | .error fault _ => fault.kind ≠ .depth

theorem Fault.showing_kind_ne_depth {fault : String → Fault} (h : ∀ s, (fault s).kind ≠ .depth)
    (text : Except DigitLimit String) : (Fault.showing fault text).kind ≠ .depth := by
  cases text with
  | ok shown => exact h shown
  | error limit => exact fun hdepth => nomatch hdepth

theorem Resolves.kind_ne_depth {env : Environment} {text : String} {fault : Fault}
    (h : Resolves env text (.error fault)) : fault.kind ≠ .depth := by
  cases h with
  | digits => exact fun hdepth => nomatch hdepth
  | unbound => exact fun hdepth => nomatch hdepth

theorem Primitive.Yields.notTooDeep {op : Primitive} {args : List Value} {next : Nat}
    {o : Outcome Value} (h : op.Yields args next o) : NotTooDeep o := by
  cases h with
  | cons | cdr | eq | test | number => trivial
  | notPair => exact Fault.showing_kind_ne_depth (by simp [Fault.kind]) _
  | notNumber => exact Fault.showing_kind_ne_depth (by simp [Fault.kind]) _
  | count => exact fun hdepth => nomatch hdepth

-- By recursion on the derivation: a fault of a part is that of the whole.
mutual

theorem Evaluates.notTooDeep : ∀ {e : Expr} {env : Environment} {next : Nat} {o : Outcome Value},
    Evaluates e env next o → NotTooDeep o
  | _, _, _, _, .literal _ => trivial
  | _, _, _, _, .literalFails h => h.kind_ne_depth
  | _, _, _, _, .identifier _ => trivial
  | _, _, _, _, .identifierUnbound _ => fun hdepth => nomatch hdepth
  | _, _, _, _, .quote _ => trivial
  | _, _, _, _, .quoteFails h => fun hdepth => by
    have hkinds := Expr.datum_unlimited_failsOnly _ _ h
    rw [hdepth] at hkinds
    simp at hkinds
  | _, _, _, _, .cond h => h.notTooDeep
  | _, _, _, _, .lambda => trivial
  | _, _, _, _, .headFails hfunc => hfunc.notTooDeep
  | _, _, _, _, .argFails _ hargs => hargs.notTooDeep
  | _, _, _, _, .app _ _ happly => happly.notTooDeep
  | _, _, _, _, .empty => fun hdepth => nomatch hdepth
  | _, _, _, _, .branch => fun hdepth => nomatch hdepth

theorem EvaluatesAll.notTooDeep : ∀ {args : List Expr} {env : Environment} {next : Nat}
    {o : Outcome (List Value)}, EvaluatesAll args env next o → NotTooDeep o
  | _, _, _, _, .nil => trivial
  | _, _, _, _, .headFails h => h.notTooDeep
  | _, _, _, _, .tailFails _ hrest => hrest.notTooDeep
  | _, _, _, _, .cons _ _ => trivial

theorem Chooses.notTooDeep : ∀ {whole : List (Expr × Expr)} {env : Environment}
    {rest : List (Expr × Expr)} {next : Nat} {o : Outcome Value},
    Chooses whole env rest next o → NotTooDeep o
  | _, _, _, _, _, .exhausted => fun hdepth => nomatch hdepth
  | _, _, _, _, _, .questionFails h => h.notTooDeep
  | _, _, _, _, _, .selected _ hanswer => hanswer.notTooDeep
  | _, _, _, _, _, .passed _ _ hrest => hrest.notTooDeep

theorem Applies.notTooDeep : ∀ {callee : Value} {args : List Value} {next : Nat} {o : Outcome Value},
    Applies callee args next o → NotTooDeep o
  | _, _, _, _, .primitive h => h.notTooDeep
  | _, _, _, _, .closure _ h => h.notTooDeep
  | _, _, _, _, .closureCount _ => fun hdepth => nomatch hdepth
  | _, _, _, _, .uncallable _ => Fault.showing_kind_ne_depth (by simp [Fault.kind]) _

end

/-! ## Runs within frames -/

end MiniLisp
