import MiniLisp.Proofs.Evaluation.BigStep
import MiniLisp.Proofs.Evaluation.EnoughFrames
import MiniLisp.Proofs.Evaluation.MoreFrames

/-!
The evaluator and the rules of the language agree. An outcome is derived by the rules exactly if
evaluation comes to it with all large enough numbers of frames, and there is at most one such outcome.

From the rules to the evaluator the proof is by induction on derivations, where "with all large enough
numbers of frames" takes the place of a count; from the evaluator to the rules by induction on frames.
-/

namespace MiniLisp

variable {α : Type}

/-- Without a limit on frames, evaluation ends with the outcome. -/
def EndsWith (e : Expr) (env : Environment) (next : Nat) (o : Outcome Value) : Prop :=
  Settles (fun frames => eval frames e env next) o

/-! ## From the evaluator to the rules -/

theorem report_of_finished {room : Headroom} {needed next : Nat} {fault : Fault}
    (h : Finished (.error (room.report needed fault) next : Outcome α)) :
    room.report needed fault = fault := by
  unfold Headroom.report at h ⊢
  by_cases hroom : room.holds needed = true
  · rw [if_pos hroom]
  · rw [if_neg hroom] at h
    exact (h rfl).elim

theorem Primitive.yields_of_finished {frames next : Nat} {op : Primitive} {args : List Value}
    (h : Finished (op.call frames args next)) : op.Yields args next (op.call frames args next) := by
  induction op, args using Primitive.callCases with
  | cons => exact .cons
  | cdr => exact .cdr
  | notPair v other =>
    rw [call_cdr_other _ other] at h ⊢
    rw [EvalM.throw_run, report_of_finished h]
    exact .notPair other
  | eq a b =>
    rw [call_eq] at h ⊢
    by_cases hab : a.comparisonFrames b ≤ frames
    · rw [if_pos hab]
      exact .eq
    · rw [if_neg hab] at h
      exact (h rfl).elim
  | test op f v hf =>
    rw [call_test _ hf]
    exact .test hf
  | number op f n hf =>
    rw [call_number _ hf]
    exact .number hf
  | notNumber op f v hf other =>
    rw [call_notNumber _ hf other] at h ⊢
    rw [EvalM.throw_run, report_of_finished h]
    exact .notNumber hf other
  | count op args hcount =>
    rw [call_count _ hcount]
    exact .count hcount

/-- The outcomes of all runs with so many frames, if finished, are derived by the rules. -/
structure Derived (frames : Nat) : Prop where
  eval : ∀ e env next, Finished (eval frames e env next) →
    Evaluates e env next (eval frames e env next)
  part : ∀ e env next, Finished (evalPart frames e env next) →
    Evaluates e env next (evalPart frames e env next)
  apply : ∀ callee args next, Finished (apply frames callee args next) →
    Applies callee args next (apply frames callee args next)

namespace Derived

variable {frames : Nat} (ih : Derived frames)
include ih

theorem evaluatesAll (args : List Expr) (env : Environment) (next : Nat)
    (h : Finished (args.mapM (fun arg => evalPart frames arg env) next)) :
    EvaluatesAll args env next (args.mapM (fun arg => evalPart frames arg env) next) := by
  induction args generalizing next with
  | nil => exact .nil
  | cons arg args ihargs =>
    have harg := ih.part arg env next
    rw [List.mapM_cons, EvalM.bind_run] at h ⊢
    cases hrun : evalPart frames arg env next with
    | error fault m =>
      rw [hrun] at h harg
      exact .headFails (harg h)
    | ok v m =>
      rw [hrun] at h harg
      have hrest := ihargs m
      simp only [EvalM.bind_run] at h ⊢
      cases hruns : args.mapM (fun arg => evalPart frames arg env) m with
      | error fault k =>
        rw [hruns] at h hrest
        exact .tailFails (harg trivial) (hrest h)
      | ok vs k =>
        rw [hruns] at hrest
        exact .cons (harg trivial) (hrest trivial)

theorem chooses {whole rest : List (Expr × Expr)} {env : Environment} {next : Nat}
    (h : Finished (evalBranches frames whole env rest next)) :
    Chooses whole env rest next (evalBranches frames whole env rest next) := by
  induction rest generalizing next with
  | nil =>
    have hreport := report_of_finished h
    show Chooses whole env [] next (.error (Headroom.report _ _ _) next)
    rw [hreport]
    exact .exhausted
  | cons b rest ihrest =>
    have hquestion := ih.part b.1 env next
    rw [evalBranches, EvalM.bind_run] at h ⊢
    cases hrun : evalPart frames b.1 env next with
    | error fault m =>
      rw [hrun] at h hquestion
      exact .questionFails (hquestion h)
    | ok v m =>
      rw [hrun] at h hquestion
      by_cases hv : v.isTrue = true
      · simp only [if_pos hv] at h ⊢
        have hq := hquestion trivial
        rw [Value.isTrue_iff.1 hv] at hq
        exact .selected hq (ih.part b.2 env m h)
      · simp only [if_neg hv] at h ⊢
        exact .passed (hquestion trivial) (fun htrue => hv (Value.isTrue_iff.2 htrue)) (ihrest h)

theorem evaluates_succ (e : Expr) (env : Environment) (next : Nat)
    (h : Finished (MiniLisp.eval (frames + 1) e env next)) :
    Evaluates e env next (MiniLisp.eval (frames + 1) e env next) := by
  cases e with
  | literal text =>
    rw [eval_literal]
    have hresolves := resolves_resolve env text
    cases hr : env.resolve text with
    | ok v => exact .literal (hr ▸ hresolves)
    | error fault => exact .literalFails (hr ▸ hresolves)
  | identifier name =>
    rw [eval_identifier]
    cases hv : env.get? name with
    | none =>
      have hlacks := lacks_iff.2 hv
      rw [lookup_of_lacks hlacks]
      exact .identifierUnbound hlacks
    | some v =>
      have hbinds := binds_iff.2 hv
      rw [lookup_of_binds hbinds]
      exact .identifier hbinds
  | quote d =>
    rw [eval_quote, EvalM.bind_run] at h ⊢
    -- A datum found in limited room, or a fault other than the lack of it, is that of unlimited room.
    have hunlimited := (Expr.datum_graded d).eq_unlimited (.frames (frames - 1))
    cases hd : d.datum (.frames (frames - 1)) with
    | ok found =>
      rw [hd] at hunlimited
      exact .quote (hunlimited (by simp))
    | error fault =>
      rw [hd] at h hunlimited
      exact .quoteFails (hunlimited fun hout => h (Except.error.inj hout))
  | branch question answer =>
    rw [eval_branch] at h ⊢
    -- The message may need more frames than there are, but then the run is not finished.
    have hreport := report_of_finished h
    show Evaluates _ env next (.error (Headroom.report _ _ _) next)
    rw [hreport]
    exact .branch
  | cond branches =>
    rw [eval_cond] at h ⊢
    exact .cond (ih.chooses h)
  | lambda params body =>
    rw [eval_lambda]
    exact .lambda
  | app func args =>
    have hfunc := ih.eval func env next
    rw [eval_app, EvalM.bind_run] at h ⊢
    cases hrun : MiniLisp.eval frames func env next with
    | error fault m =>
      rw [hrun] at h hfunc
      exact .headFails (hfunc h)
    | ok head m =>
      rw [hrun] at h hfunc
      have hargs := ih.evaluatesAll args env m
      simp only [EvalM.bind_run] at h ⊢
      cases hruns : args.mapM (fun arg => evalPart frames arg env) m with
      | error fault k =>
        rw [hruns] at h hargs
        exact .argFails (hfunc trivial) (hargs h)
      | ok values k =>
        rw [hruns] at h hargs
        exact .app (hfunc trivial) (hargs trivial) (ih.apply head values k h)
  | empty =>
    rw [eval_empty]
    exact .empty

theorem applies_succ (callee : Value) (args : List Value) (next : Nat)
    (h : Finished (MiniLisp.apply (frames + 1) callee args next)) :
    Applies callee args next (MiniLisp.apply (frames + 1) callee args next) := by
  by_cases hcallable : callee.isCallable = true
  · cases callee with
    | primitive op =>
      rw [apply_primitive] at h ⊢
      exact .primitive (Primitive.yields_of_finished h)
    | closure cell params body env =>
      rw [apply_closure, EvalM.bind_run, Environment.bindArgs] at h ⊢
      by_cases hcount : args.length = params.length
      · simp only [if_pos hcount, EvalM.lift_ok_run] at h ⊢
        exact .closure hcount (ih.part body _ next h)
      · simp only [if_neg hcount, EvalM.lift_error_run]
        exact .closureCount hcount
    | _ => cases hcallable
  · have hother : callee.isCallable = false := Bool.eq_false_iff.2 hcallable
    rw [apply_uncallable _ hother] at h ⊢
    rw [EvalM.throw_run, report_of_finished h]
    exact .uncallable hother

end Derived

theorem derived (frames : Nat) : Derived frames := by
  -- A step leaves its parts one frame fewer, and without a frame no run is finished.
  induction frames with
  | zero =>
    refine ⟨fun e env next h => ?_, fun e env next h => ?_, fun callee args next h => ?_⟩
    · rw [eval_zero] at h; exact (h rfl).elim
    · rw [evalPart_zero] at h; exact (h rfl).elim
    · rw [apply_zero] at h; exact (h rfl).elim
  | succ frames ih =>
    refine ⟨ih.evaluates_succ, fun e env next h => ?_, ih.applies_succ⟩
    rw [evalPart_succ] at h ⊢
    exact ih.eval e env next h

/-! ## From the rules to the evaluator -/

theorem evalPart_settles {e : Expr} {env : Environment} {next : Nat} {o : Outcome Value}
    (h : EndsWith e env next o) : Settles (fun frames => evalPart frames e env next) o := by
  apply Settles.of_succ
  simp only [evalPart_succ]
  exact h

theorem Fault.showing_ne_outOfFrames {fault : String → Fault} (h : ∀ s, fault s ≠ .outOfFrames)
    (text : Except DigitLimit String) : Fault.showing fault text ≠ .outOfFrames := by
  cases text with
  | ok shown => exact h shown
  | error limit => exact fun hout => nomatch hout

theorem Resolves.ne_outOfFrames {env : Environment} {text : String} {fault : Fault}
    (h : Resolves env text (.error fault)) : fault ≠ .outOfFrames := by
  cases h with
  | digits => exact fun hout => nomatch hout
  | unbound => exact fun hout => nomatch hout

theorem Primitive.Yields.settles {op : Primitive} {args : List Value} {next : Nat}
    {o : Outcome Value} (h : op.Yields args next o) :
    Settles (fun frames => op.call frames args next) o := by
  cases h with
  | cons => exact .const trivial
  | cdr => exact .const trivial
  | notPair other =>
    simp only [call_cdr_other _ other, EvalM.throw_run]
    exact .report (Fault.showing_ne_outOfFrames (by simp) _)
  | @eq a b =>
    refine ⟨trivial, ?_⟩
    filter_upwards [Filter.eventually_ge_atTop (a.comparisonFrames b)] with n hn
    rw [call_eq, if_pos hn]
    rfl
  | test hf =>
    simp only [call_test _ hf]
    exact .const trivial
  | number hf =>
    simp only [call_number _ hf]
    exact .const trivial
  | notNumber hf other =>
    simp only [call_notNumber _ hf other, EvalM.throw_run]
    exact .report (Fault.showing_ne_outOfFrames (by simp) _)
  | count hcount =>
    simp only [call_count _ hcount]
    exact .const (by simp [Finished])

-- By recursion on the derivation; `Settles.of_succ` gives each step the frame that it takes for itself.
mutual

theorem Evaluates.endsWith : ∀ {e : Expr} {env : Environment} {next : Nat} {o : Outcome Value},
    Evaluates e env next o → EndsWith e env next o
  | _, _, _, _, .literal h => by
    apply Settles.of_succ
    simp only [eval_literal, h.eq_resolve]
    exact .const trivial
  | _, _, _, _, .literalFails h => by
    apply Settles.of_succ
    simp only [eval_literal, h.eq_resolve]
    exact .const h.ne_outOfFrames
  | _, _, _, _, .identifier h => by
    apply Settles.of_succ
    simp only [eval_identifier, lookup_of_binds h]
    exact .const trivial
  | _, _, _, _, .identifierUnbound h => by
    apply Settles.of_succ
    simp only [eval_identifier, lookup_of_lacks h]
    exact .const (by simp [Finished])
  | _, _, _, _, .quote h => by
    apply Settles.of_succ
    simp only [eval_quote]
    exact .bind_ok (((Expr.datum_graded _).below 1).settles_ok h _) (.const trivial)
  | _, _, _, _, .quoteFails h => by
    apply Settles.of_succ
    simp only [eval_quote]
    exact .bind_error (((Expr.datum_graded _).below 1).settles_error h _)
  | _, _, _, _, .cond h => by
    have hbranches := h.settles
    apply Settles.of_succ
    simp only [eval_cond]
    exact hbranches
  | _, _, _, _, .lambda => by
    apply Settles.of_succ
    simp only [eval_lambda]
    exact .const trivial
  | _, _, _, _, .headFails hfunc => by
    have hhead := hfunc.endsWith
    apply Settles.of_succ
    simp only [eval_app]
    exact .bind_error hhead
  | _, _, _, _, .argFails hfunc hargs => by
    have hhead := hfunc.endsWith
    have hfails := hargs.settles
    apply Settles.of_succ
    simp only [eval_app]
    exact .bind_ok hhead (.bind_error hfails)
  | _, _, _, _, .app hfunc hargs happly => by
    have hhead := hfunc.endsWith
    have hvalues := hargs.settles
    have hcall := happly.settles
    apply Settles.of_succ
    simp only [eval_app]
    exact .bind_ok hhead (.bind_ok hvalues hcall)
  | _, _, _, _, .empty => by
    apply Settles.of_succ
    simp only [eval_empty]
    exact .const (by simp [Finished])
  | _, _, _, _, .branch => by
    apply Settles.of_succ
    simp only [eval_branch]
    exact .report (by simp)

theorem EvaluatesAll.settles : ∀ {args : List Expr} {env : Environment} {next : Nat}
    {o : Outcome (List Value)}, EvaluatesAll args env next o →
    Settles (fun frames => args.mapM (fun arg => evalPart frames arg env) next) o
  | _, _, _, _, .nil => .const trivial
  | _, _, _, _, .headFails h => by
    have harg := evalPart_settles h.endsWith
    simp only [List.mapM_cons]
    exact .bind_error harg
  | _, _, _, _, .tailFails h hrest => by
    have harg := evalPart_settles h.endsWith
    have hfails := hrest.settles
    simp only [List.mapM_cons]
    exact .bind_ok harg (.bind_error hfails)
  | _, _, _, _, .cons h hrest => by
    have harg := evalPart_settles h.endsWith
    have hvalues := hrest.settles
    simp only [List.mapM_cons]
    exact .bind_ok harg (.bind_ok hvalues (.const trivial))

theorem Chooses.settles : ∀ {whole : List (Expr × Expr)} {env : Environment}
    {rest : List (Expr × Expr)} {next : Nat} {o : Outcome Value}, Chooses whole env rest next o →
    Settles (fun frames => evalBranches frames whole env rest next) o
  | _, _, _, _, _, .exhausted => .report (by simp)
  | _, _, _, _, _, .questionFails h => by
    have hquestion := evalPart_settles h.endsWith
    simp only [evalBranches]
    exact .bind_error hquestion
  | _, _, _, _, _, .selected h hanswer => by
    have hquestion := evalPart_settles h.endsWith
    have hselected := evalPart_settles hanswer.endsWith
    simp only [evalBranches]
    exact .bind_ok hquestion hselected
  | _, _, _, _, _, .passed h other hrest => by
    have hquestion := evalPart_settles h.endsWith
    have hothers := hrest.settles
    simp only [evalBranches]
    refine .bind_ok hquestion ?_
    simp only [if_neg fun htrue => other (Value.isTrue_iff.1 htrue)]
    exact hothers

theorem Applies.settles : ∀ {callee : Value} {args : List Value} {next : Nat} {o : Outcome Value},
    Applies callee args next o → Settles (fun frames => apply frames callee args next) o
  | _, _, _, _, .primitive h => by
    apply Settles.of_succ
    simp only [apply_primitive]
    exact h.settles
  | _, _, _, _, .closure count h => by
    have hbody := evalPart_settles h.endsWith
    apply Settles.of_succ
    simp only [apply_closure, Environment.bindArgs, if_pos count]
    exact hbody
  | _, _, _, _, .closureCount count => by
    apply Settles.of_succ
    simp only [apply_closure, Environment.bindArgs, if_neg count]
    exact .const (by simp [Finished])
  | _, _, _, _, .uncallable h => by
    apply Settles.of_succ
    simp only [apply_uncallable _ h]
    exact .report (Fault.showing_ne_outOfFrames (by simp) _)

end

/-! ## Agreement -/

theorem evaluates_of_finished {frames next : Nat} {e : Expr} {env : Environment}
    (h : Finished (eval frames e env next)) : Evaluates e env next (eval frames e env next) :=
  (derived frames).eval e env next h

theorem endsWith_of_finished {frames next : Nat} {e : Expr} {env : Environment}
    (h : Finished (eval frames e env next)) : EndsWith e env next (eval frames e env next) :=
  (evaluates_of_finished h).endsWith

theorem Evaluates.of_eval {frames next : Nat} {e : Expr} {env : Environment} {o : Outcome Value}
    (hrun : eval frames e env next = o) (h : Finished o) : Evaluates e env next o := by
  subst hrun
  exact evaluates_of_finished h

theorem EndsWith.of_eval {frames next : Nat} {e : Expr} {env : Environment} {o : Outcome Value}
    (hrun : eval frames e env next = o) (h : Finished o) : EndsWith e env next o :=
  (Evaluates.of_eval hrun h).endsWith

theorem endsWith_iff_evaluates {e : Expr} {env : Environment} {next : Nat} {o : Outcome Value} :
    EndsWith e env next o ↔ Evaluates e env next o := by
  constructor
  · intro h
    -- Any number of frames that gives the outcome will do.
    obtain ⟨frames, hframes⟩ := h.eventually.exists
    rw [← hframes]
    apply evaluates_of_finished
    rw [hframes]
    exact h.finished
  · exact Evaluates.endsWith

/-- If with every number of frames a second evaluation is finished where the first one is, then it ends if
the first one does. -/
theorem EndsWith.transfer {e e' : Expr} {env env' : Environment} {next next' : Nat} {o : Outcome Value}
    (hends : EndsWith e env next o)
    (h : ∀ frames, Finished (eval frames e env next) → Finished (eval frames e' env' next')) :
    ∃ o', EndsWith e' env' next' o' := by
  obtain ⟨frames, hframes⟩ := hends.eventually.exists
  exact ⟨_, endsWith_of_finished (h frames (hframes ▸ hends.finished))⟩

/-- What holds of two evaluations with every number of frames holds of what they end with. -/
theorem EndsWith.related {R : Outcome Value → Outcome Value → Prop} {e e' : Expr}
    {env env' : Environment} {next next' : Nat} {o o' : Outcome Value} (hends : EndsWith e env next o)
    (hends' : EndsWith e' env' next' o')
    (h : ∀ frames, R (eval frames e env next) (eval frames e' env' next')) : R o o' := by
  -- With enough frames for both, the outcomes are those of two runs within the same number.
  obtain ⟨frames, hframes, hframes'⟩ := (hends.eventually.and hends'.eventually).exists
  rw [← hframes, ← hframes']
  exact h frames

end MiniLisp
