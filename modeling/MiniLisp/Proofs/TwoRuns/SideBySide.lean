import MiniLisp.Proofs.Evaluation.Names
import MiniLisp.Proofs.TwoRuns.Coupling
import MiniLisp.Proofs.TwoRuns.LikeValues

/-!
Two evaluations side by side. A relation between the values of two runs, and one between expressions in
their environments, are kept by evaluation if each step hands them on (`SideBySide`): then the runs come
to related values, or to faults that correspond, with every number of frames (`SideBySide.runs_eval`).
-/

namespace MiniLisp

namespace Likeness

/-- A way in which faults may correspond that both runs end with at the same point. -/
structure Endings (L : Likeness) where
  faults : Fault → Fault → Prop
  refl (f : Fault) : faults f f
  showing {fault : String → Fault} (kind : FaultKind) (hkind : ∀ s, (fault s).kind = kind)
    (hdepth : kind ≠ .depth) {r r' : Except DigitLimit String} (h : L.Texts r r') :
    faults (.showing fault r) (.showing fault r')
  noTrueQuestion {branches others : List (Expr × Expr)}
    (h : L.alike (.cond branches) (.cond others)) :
    faults (.noTrueQuestion (.cond branches)) (.noTrueQuestion (.cond others))
  unevaluable {q a q' a' : Expr} (h : L.alike (.branch q a) (.branch q' a')) :
    faults (.unevaluable (.branch q a)) (.unevaluable (.branch q' a'))
  arity {params others : List String} (h : L.binders params others) (given : Nat) :
    faults (.arity (Value.closureSource params) params.length given)
      (.arity (Value.closureSource others) others.length given)

/-- Faults of one kind, and with one message if texts have to be the same. -/
def sameKinds (L : Likeness) : L.Endings where
  faults := L.Faults
  refl := .refl L
  showing kind hkind hdepth _ _ h := .showing kind hkind hdepth h
  noTrueQuestion h := by
    refine .of_kind .noTrueQuestion rfl rfl (by decide) fun same => ?_
    exact congrArg ("No true question in " ++ ·) (L.alike_source same h)
  unevaluable h := by
    refine .of_kind .unevaluable rfl rfl (by decide) fun same => ?_
    exact congrArg ("Cannot evaluate " ++ ·) (L.alike_branch same h)
  arity h given := by
    refine .of_kind .arity rfl rfl (by decide) fun same => ?_
    rw [L.binders_eq same h]

/-- The same faults, where expressions and parameter lists are the same in both runs. -/
def sameFaults (L : Likeness) (same : L.sameTexts) (halike : ∀ e e', L.alike e e' → e = e') :
    L.Endings where
  faults := Eq
  refl _ := rfl
  showing _ _ _ _ _ h := by rw [h.eq same]
  noTrueQuestion h := by rw [halike _ _ h]
  unevaluable h := by rw [halike _ _ h]
  arity h _ := by rw [L.binders_eq same h]

/-- How the outcomes of runs correspond that go on side by side and end so. -/
def couplingTo (L : Likeness) (endings : L.Endings) : Coupling where
  counters := L.counters
  faults := endings.faults
  excused := L.excused

/-- Two expressions of one form in their environments, with what is asked of their parts. -/
inductive Parts (L : Likeness) (endings : L.Endings) (values : Value → Value → Prop)
    (code : Expr → Environment → Expr → Environment → Prop) (env env' : Environment) :
    Expr → Expr → Prop
  | atom {e e' : Expr} {a b : Atom} (he : e.atom? = some a) (he' : e'.atom? = some b)
      (h : (L.couplingTo endings).Runs values (liftM (env.valueOf a)) (liftM (env'.valueOf b))) :
      Parts L endings values code env env' e e'
  | quote {d : Expr} : Parts L endings values code env env' (.quote d) (.quote d)
  | branch {q a q' a' : Expr} (halike : L.alike (.branch q a) (.branch q' a')) :
      Parts L endings values code env env' (.branch q a) (.branch q' a')
  | cond {branches others : List (Expr × Expr)} (halike : L.alike (.cond branches) (.cond others))
      (h : List.Forall₂ (fun b b' => code b.1 env b'.1 env' ∧ code b.2 env b'.2 env')
        branches others) :
      Parts L endings values code env env' (.cond branches) (.cond others)
  | lambda {params others : List String} {body body' : Expr}
      (h : ∀ c d, L.made c d →
        values (.closure c params body env) (.closure d others body' env')) :
      Parts L endings values code env env' (.lambda params body) (.lambda others body')
  | app {func func' : Expr} {args others : List Expr} (hfunc : code func env func' env')
      (hargs : List.Forall₂ (fun a a' => code a env a' env') args others) :
      Parts L endings values code env env' (.app func args) (.app func' others)
  | empty : Parts L endings values code env env' .empty .empty

/-- One expression in two environments, where only atoms and lambdas depend on these. -/
theorem Parts.same {L : Likeness} {endings : L.Endings} {values : Value → Value → Prop}
    (scopes : Environment → Environment → Prop) {env env' : Environment} (henv : scopes env env')
    (hatom : ∀ a : Atom,
      (L.couplingTo endings).Runs values (liftM (env.valueOf a)) (liftM (env'.valueOf a)))
    (hmade : ∀ params body c d, L.made c d →
      values (.closure c params body env) (.closure d params body env')) (e : Expr) :
    L.Parts endings values (fun e env e' env' => e = e' ∧ scopes env env') env env' e e := by
  cases e with
  | literal text => exact .atom rfl rfl (hatom _)
  | identifier name => exact .atom rfl rfl (hatom _)
  | quote => exact .quote
  | branch => exact .branch (L.alike_refl _)
  | cond => exact .cond (L.alike_refl _) (List.forall₂_same.2 fun b _ => ⟨⟨rfl, henv⟩, rfl, henv⟩)
  | lambda => exact .lambda (hmade _ _)
  | app => exact .app ⟨rfl, henv⟩ (List.forall₂_same.2 fun a _ => ⟨rfl, henv⟩)
  | empty => exact .empty

end Likeness

/-- Relations between the values of two runs, and between expressions in their environments, that each
step of evaluation hands on. -/
structure SideBySide where
  like : Likeness
  endings : like.Endings
  values : Value → Value → Prop
  code : Expr → Environment → Expr → Environment → Prop
  resembles {v w : Value} (h : values v w) : like.Resembles v w
  plain {v : Value} (h : v.cell? = none) : values v v
  pair {c d : Nat} {head head' tail tail' : Value} (hcell : like.made c d)
    (hhead : values head head') (htail : values tail tail') :
    values (.pair c head tail) (.pair d head' tail')
  tail {c d : Nat} {head head' tail tail' : Value}
    (h : values (.pair c head tail) (.pair d head' tail')) : values tail tail'
  call {c d : Nat} {params others : List String} {body body' : Expr} {env env' : Environment}
    {args args' : List Value}
    (h : values (.closure c params body env) (.closure d others body' env'))
    (hargs : List.Forall₂ values args args') (count : args.length = params.length)
    (count' : args'.length = others.length) :
    code body (env.extend (params.zip args)) body' (env'.extend (others.zip args'))
  parts {e e' : Expr} {env env' : Environment} (h : code e env e' env') :
    like.Parts endings values code env env' e e'

theorem plain_of_valueOf_nil {a : Atom} {v : Value} (h : Environment.valueOf [] a = .ok v) :
    v.cell? = none := by
  cases a with
  | literal text =>
    have hresolves := resolves_resolve [] text
    have hresolve : Environment.resolve [] text = .ok v := h
    rw [hresolve] at hresolves
    cases hresolves with
    | bound hbinds => cases hbinds
    | integer | isTrue | isFalse | primitive => rfl
  | identifier name => cases h

theorem eq_singleton_of_forall₂ {α β : Type} {S : α → β → Prop} {a : α} {bs : List β}
    (h : List.Forall₂ S [a] bs) : ∃ b, bs = [b] ∧ S a b := by
  cases h with
  | cons hb hrest =>
    cases hrest
    exact ⟨_, rfl, hb⟩

theorem eq_pair_of_forall₂ {α β : Type} {S : α → β → Prop} {a a' : α} {bs : List β}
    (h : List.Forall₂ S [a, a'] bs) : ∃ b b', bs = [b, b'] ∧ S a b ∧ S a' b' := by
  cases h with
  | cons hb hrest =>
    obtain ⟨b', rfl, hb'⟩ := eq_singleton_of_forall₂ hrest
    exact ⟨_, b', rfl, hb, hb'⟩

namespace SideBySide

/-- How the outcomes of the two runs correspond. -/
def coupling (S : SideBySide) : Coupling :=
  S.like.couplingTo S.endings

/-- The two computations come to related values, or to faults that correspond. -/
abbrev Runs (S : SideBySide) (first second : EvalM Value) : Prop :=
  S.coupling.Runs S.values first second

variable {S : SideBySide}

theorem runs_report {frames needed needed' : Nat} {f g : Fault} (h : S.endings.faults f g)
    (hneeded : needed = needed') :
    S.Runs (throw ((Headroom.frames frames).report needed f))
      (throw ((Headroom.frames frames).report needed' g)) := by
  subst hneeded
  unfold Headroom.report
  by_cases hroom : (Headroom.frames frames).holds needed = true
  · rw [if_pos hroom, if_pos hroom]
    exact .throw h
  · rw [if_neg hroom, if_neg hroom]
    exact .throw (S.endings.refl _)

/-! ## Data -/

mutual

theorem place : ∀ (d : Datum) {m n : Nat}, S.like.counters m n →
    S.values (d.place m).1 (d.place n).1 ∧ S.like.counters (d.place m).2 (d.place n).2
  | .int k, _, _, h => by simp only [Datum.place]; exact ⟨S.plain rfl, h⟩
  | .bool b, _, _, h => by simp only [Datum.place]; exact ⟨S.plain rfl, h⟩
  | .symbol name, _, _, h => by simp only [Datum.place]; exact ⟨S.plain rfl, h⟩
  | .list items, _, _, h => by simp only [Datum.place]; exact placeItems items h

theorem placeItems : ∀ (items : List Datum) {m n : Nat}, S.like.counters m n →
    S.values (Datum.placeItems items m).1 (Datum.placeItems items n).1 ∧
      S.like.counters (Datum.placeItems items m).2 (Datum.placeItems items n).2
  | [], _, _, h => by simp only [Datum.placeItems]; exact ⟨S.plain rfl, h⟩
  | item :: items, _, _, h => by
    obtain ⟨hhead, h⟩ := place item h
    obtain ⟨htail, h⟩ := placeItems items h
    simp only [Datum.placeItems]
    exact ⟨S.pair (S.like.made_of_counters h) hhead htail, S.like.counters_succ h⟩

end

/-! ## Primitive operations -/

theorem runs_call {frames : Nat} {op : Primitive} {args others : List Value}
    (h : List.Forall₂ S.values args others) : S.Runs (op.call frames args) (op.call frames others) := by
  induction op, args using Primitive.callCases with
  | cons head tail =>
    obtain ⟨head', tail', rfl, hhead, htail⟩ := eq_pair_of_forall₂ h
    rw [Primitive.call_cons, Primitive.call_cons]
    intro m n hcounters
    exact .ok (S.pair (S.like.made_of_counters hcounters) hhead htail)
      (S.like.counters_succ hcounters)
  | cdr cell head tail =>
    obtain ⟨w, rfl, hw⟩ := eq_singleton_of_forall₂ h
    cases S.resembles hw with
    | plain hplain => cases hplain
    | pair => exact .pure (S.tail hw)
  | notPair v other =>
    obtain ⟨w, rfl, hw⟩ := eq_singleton_of_forall₂ h
    have hlike := S.resembles hw
    rw [Primitive.call_cdr_other _ other, Primitive.call_cdr_other _ (hlike.isPair ▸ other)]
    exact runs_report (S.endings.showing .type (fun _ => rfl) (by decide) hlike.debugForm)
      hlike.debugFrames
  | eq a b =>
    obtain ⟨a', b', rfl, ha, hb⟩ := eq_pair_of_forall₂ h
    have ha := S.resembles ha
    have hb := S.resembles hb
    rw [Primitive.call_eq, Primitive.call_eq, ← ha.comparisonFrames hb, ← ha.isEqual hb]
    by_cases hframes : a.comparisonFrames b ≤ frames
    · rw [if_pos hframes]
      exact .pure (S.plain rfl)
    · rw [if_neg hframes]
      exact .throw (S.endings.refl _)
  | test op f v hf =>
    obtain ⟨w, rfl, hw⟩ := eq_singleton_of_forall₂ h
    have hlike := S.resembles hw
    have hanswer : f v = f w := by
      cases op <;> cases hf
      · exact hlike.isNil
      · exact congrArg (!·) hlike.isPair
      · exact hlike.isNumber
    rw [Primitive.call_test _ hf, Primitive.call_test _ hf, hanswer]
    exact .pure (S.plain rfl)
  | number op f k hf =>
    obtain ⟨w, rfl, hw⟩ := eq_singleton_of_forall₂ h
    cases S.resembles hw
    rw [Primitive.call_number _ hf]
    refine .pure (S.plain ?_)
    cases op <;> cases hf <;> rfl
  | notNumber op f v hf other =>
    obtain ⟨w, rfl, hw⟩ := eq_singleton_of_forall₂ h
    have hlike := S.resembles hw
    rw [Primitive.call_notNumber _ hf other,
      Primitive.call_notNumber _ hf (hlike.isNumber ▸ other)]
    exact runs_report (S.endings.showing .type (fun _ => rfl) (by decide) hlike.debugForm)
      hlike.debugFrames
  | count op args hcount =>
    have hlength := h.length_eq
    rw [Primitive.call_count _ hcount, Primitive.call_count _ (hlength ▸ hcount), hlength]
    exact .throw (S.endings.refl _)

/-! ## Evaluation -/

/-- Evaluation and application with so many frames keep the relations. -/
structure KeptBy (S : SideBySide) (frames : Nat) : Prop where
  eval {e e' : Expr} {env env' : Environment} (h : S.code e env e' env') :
    S.Runs (eval frames e env) (eval frames e' env')
  part {e e' : Expr} {env env' : Environment} (h : S.code e env e' env') :
    S.Runs (evalPart frames e env) (evalPart frames e' env')
  apply {callee callee' : Value} {args args' : List Value} (hcallee : S.values callee callee')
    (hargs : List.Forall₂ S.values args args') :
    S.Runs (apply frames callee args) (apply frames callee' args')

namespace KeptBy

variable {frames : Nat} (ih : S.KeptBy frames)
include ih

theorem branches {env env' : Environment} {whole whole' : List (Expr × Expr)}
    (hwhole : S.like.alike (.cond whole) (.cond whole')) {rest rest' : List (Expr × Expr)}
    (h : List.Forall₂ (fun b b' => S.code b.1 env b'.1 env' ∧ S.code b.2 env b'.2 env')
      rest rest') :
    S.Runs (evalBranches frames whole env rest) (evalBranches frames whole' env' rest') := by
  induction h with
  | nil =>
    rw [evalBranches_nil, evalBranches_nil]
    exact runs_report (S.endings.noTrueQuestion hwhole) (S.like.alike_sourceFrames hwhole)
  | cons hb _ ihrest =>
    rw [evalBranches, evalBranches]
    refine (ih.part hb.1).bind fun v w hvw => ?_
    -- Related values are true together, so both runs go on with the same branch.
    rw [← (S.resembles hvw).isTrue]
    by_cases hv : v.isTrue = true
    · rw [if_pos hv, if_pos hv]
      exact ih.part hb.2
    · rw [if_neg hv, if_neg hv]
      exact ihrest

theorem eval_succ {e e' : Expr} {env env' : Environment} (h : S.code e env e' env') :
    S.Runs (MiniLisp.eval (frames + 1) e env) (MiniLisp.eval (frames + 1) e' env') := by
  cases S.parts h with
  | atom ha hb hruns =>
    rw [eval_atom ha, eval_atom hb]
    exact hruns
  | @quote d =>
    rw [eval_quote, eval_quote]
    cases d.datum (.frames (frames - 1)) with
    | error fault => exact .throw (S.endings.refl fault)
    | ok found =>
      intro m n hcounters
      obtain ⟨hvalue, hcounters⟩ := place found hcounters
      exact .ok hvalue hcounters
  | branch halike =>
    rw [eval_branch, eval_branch]
    exact runs_report (S.endings.unevaluable halike) (S.like.alike_debugFrames halike)
  | cond halike hbranches =>
    rw [eval_cond, eval_cond]
    exact ih.branches halike hbranches
  | lambda hmade =>
    rw [eval_lambda, eval_lambda]
    intro m n hcounters
    exact .ok (hmade m n (S.like.made_of_counters hcounters)) (S.like.counters_succ hcounters)
  | app hfunc hargs =>
    rw [eval_app, eval_app]
    refine (ih.eval hfunc).bind fun head head' hhead => ?_
    have hvalues := hargs.imp fun a a' ha => ih.part ha
    exact (Coupling.Runs.mapM hvalues).bind fun values values' h => ih.apply hhead h
  | empty =>
    rw [eval_empty, eval_empty]
    exact .throw (S.endings.refl _)

theorem apply_succ {callee callee' : Value} {args args' : List Value}
    (hcallee : S.values callee callee') (hargs : List.Forall₂ S.values args args') :
    S.Runs (MiniLisp.apply (frames + 1) callee args)
      (MiniLisp.apply (frames + 1) callee' args') := by
  have hlike := S.resembles hcallee
  by_cases hcallable : callee.isCallable = true
  · cases hlike with
    | pair => cases hcallable
    | plain hplain =>
      cases callee with
      | primitive op =>
        rw [apply_primitive, apply_primitive]
        exact runs_call hargs
      | closure => cases hplain
      | _ => cases hcallable
    | @closure c d params others body body' env env' hcell hbinders halike =>
      -- As many arguments and as many parameters on both sides: both calls fail, or both bodies run.
      have hlength := hargs.length_eq
      have hparams := S.like.binders_length hbinders
      rw [apply_closure, apply_closure, Environment.bindArgs, Environment.bindArgs]
      by_cases hcount : args.length = params.length
      · have hcount' : args'.length = others.length := by omega
        rw [if_pos hcount, if_pos hcount']
        exact ih.part (S.call hcallee hargs hcount hcount')
      · have hcount' : ¬ args'.length = others.length := by omega
        rw [if_neg hcount, if_neg hcount', ← hlength]
        exact .throw (S.endings.arity hbinders _)
  · have hother : callee.isCallable = false := Bool.eq_false_iff.2 hcallable
    rw [apply_uncallable _ hother, apply_uncallable _ (hlike.isCallable ▸ hother)]
    exact runs_report (S.endings.showing .uncallable (fun _ => rfl) (by decide) hlike.source.1)
      hlike.sourceFrames.1

end KeptBy

theorem keptBy (S : SideBySide) (frames : Nat) : S.KeptBy frames := by
  induction frames with
  | zero =>
    refine ⟨fun _ => ?_, fun _ => ?_, fun _ _ => ?_⟩
    · rw [eval_zero, eval_zero]; exact .throw (S.endings.refl _)
    · rw [evalPart_zero, evalPart_zero]; exact .throw (S.endings.refl _)
    · rw [apply_zero, apply_zero]; exact .throw (S.endings.refl _)
  | succ frames ih =>
    refine ⟨ih.eval_succ, fun h => ?_, ih.apply_succ⟩
    rw [evalPart_succ, evalPart_succ]
    exact ih.eval h

/-- Related expressions in their environments come to related values, or to faults that correspond, with
every number of frames. -/
theorem runs_eval (S : SideBySide) (frames : Nat) {e e' : Expr} {env env' : Environment}
    (h : S.code e env e' env') : S.Runs (eval frames e env) (eval frames e' env') :=
  (S.keptBy frames).eval h

end SideBySide

end MiniLisp
