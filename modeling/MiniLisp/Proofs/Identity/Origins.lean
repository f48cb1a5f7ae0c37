import MiniLisp.Proofs.Identity.Watch
import MiniLisp.Proofs.Reachability.RunInvariant

/-!
Origins of closures. Each closure that a run meets is one of the environment that the run started in, or was
made by the run in a cell of its own. So closures are equal exactly if they stem from one evaluation of
one lambda (`closures_equal_only_themselves`).
-/

namespace MiniLisp

namespace Watch

/-- The second record is the first one, some time later. -/
structure Grows (w w' : Watch) : Prop where
  made : w.made <+: w'.made
  met : w.met <+: w'.met

theorem Grows.refl (w : Watch) : w.Grows w :=
  ⟨List.prefix_rfl, List.prefix_rfl⟩

theorem Grows.trans {w w' w'' : Watch} (h : w.Grows w') (h' : w'.Grows w'') : w.Grows w'' :=
  ⟨h.made.trans h'.made, h.met.trans h'.met⟩

/-- The closure is one of the environment that the run started in, or was made in the run. -/
def Knows (initial : Environment) (w : Watch) : ClosureCondition :=
  fun cell params body env =>
    initial.Reaches (.closure cell params body env) ∨ ⟨cell, params, body, env⟩ ∈ w.made

theorem Grows.knows {initial : Environment} {w w' : Watch} (h : w.Grows w') {cell : Nat}
    {params : List String} {body : Expr} {env : Environment}
    (hknown : w.Knows initial cell params body env) : w'.Knows initial cell params body env :=
  hknown.imp_right fun hmem => h.made.mem hmem

theorem Grows.value {initial : Environment} {w w' : Watch} (h : w.Grows w') {v : Value}
    (hv : v.AllClosures (w.Knows initial)) : v.AllClosures (w'.Knows initial) :=
  hv.imp fun _ _ _ _ => h.knows

theorem Grows.environment {initial : Environment} {w w' : Watch} (h : w.Grows w') {env : Environment}
    (henv : env.AllClosures (w.Knows initial)) : env.AllClosures (w'.Knows initial) :=
  henv.imp fun _ _ _ _ => h.knows

/-- The record of a run that started in the environment, with that cell as the next free one. The cells of
the closures that it made go up, and what a closure captured was made before it. -/
structure Sound (initial : Environment) (first : Nat) (w : Watch) : Prop where
  counter : first ≤ w.nextCell
  cells : ∀ k ∈ w.made, first ≤ k.cell ∧ k.cell < w.nextCell
  captured : ∀ k ∈ w.made, k.env.AllClosures fun cell _ _ _ => cell < k.cell
  ordered : w.made.Pairwise fun k k' => k.cell < k'.cell
  met : ∀ v ∈ w.met, v.AllClosures (w.Knows initial)

theorem Sound.start (initial : Environment) (first : Nat) : (Watch.start first).Sound initial first where
  counter := Nat.le_refl first
  cells _ h := nomatch h
  captured _ h := nomatch h
  ordered := .nil
  met _ h := nomatch h

end Watch

/-- The closures of the environment were made in cells before that one, and no two of them in one cell. -/
structure Environment.Identified (env : Environment) (next : Nat) : Prop where
  before : env.AllClosures fun cell _ _ _ => cell < next
  one : ∀ k k' : Closure, env.Reaches k.value → env.Reaches k'.value → k.cell = k'.cell → k = k'

namespace Watch.Sound

variable {initial : Environment} {first : Nat} {w : Watch}

theorem moveOn (h : w.Sound initial first) {next : Nat} (hle : w.nextCell ≤ next) :
    Watch.Sound initial first ⟨next, w.made, w.met⟩ where
  counter := Nat.le_trans h.counter hle
  cells k hk := (h.cells k hk).imp_right fun hlt => Nat.lt_of_lt_of_le hlt hle
  captured := h.captured
  ordered := h.ordered
  met := h.met

/-- Closures that are known were made in cells before the next free one. -/
theorem lt_of_knows (h : w.Sound initial first) (hinitial : initial.Identified first) {cell : Nat}
    {params : List String} {body : Expr} {env : Environment}
    (hknown : w.Knows initial cell params body env) : cell < w.nextCell := by
  rcases hknown with hreaches | hmem
  · have hlt := hinitial.before cell params body env hreaches
    have hle := h.counter
    omega
  · exact (h.cells _ hmem).2

theorem make (h : w.Sound initial first) (hinitial : initial.Identified first)
    {params : List String} {body : Expr} {env : Environment}
    (henv : env.AllClosures (w.Knows initial)) :
    Watch.Sound initial first
      ⟨w.nextCell + 1, w.made ++ [⟨w.nextCell, params, body, env⟩], w.met⟩ where
  counter := Nat.le_succ_of_le h.counter
  cells := by
    have hmoved := h.moveOn (Nat.le_succ w.nextCell)
    refine List.forall_mem_append.2 ⟨hmoved.cells, List.forall_mem_singleton.2 ?_⟩
    exact ⟨h.counter, Nat.lt_succ_self _⟩
  captured := by
    -- What the new closure captures is known, so it was made before the next free cell.
    refine List.forall_mem_append.2 ⟨h.captured, List.forall_mem_singleton.2 ?_⟩
    exact henv.imp fun _ _ _ _ => h.lt_of_knows hinitial
  ordered := by
    refine List.pairwise_append.2 ⟨h.ordered, List.pairwise_singleton _ _, fun k hk k' hk' => ?_⟩
    obtain rfl := List.mem_singleton.1 hk'
    exact (h.cells k hk).2
  met v hv := (h.met v hv).imp fun _ _ _ _ => Or.imp_right fun hmem => List.mem_append_left _ hmem

theorem meet (h : w.Sound initial first) {v : Value} (hv : v.AllClosures (w.Knows initial)) :
    Watch.Sound initial first ⟨w.nextCell, w.made, w.met ++ [v]⟩ where
  counter := h.counter
  cells := h.cells
  captured := h.captured
  ordered := h.ordered
  met := List.forall_mem_append.2 ⟨h.met, List.forall_mem_singleton.2 hv⟩

end Watch.Sound

/-! ## What watched runs preserve -/

section

variable {α β : Type} (initial : Environment) (first : Nat)

/-- From any sound record that is the given one some time later, the computation goes on to a sound record,
and what it comes to is good. -/
def Preserves (before : Watch) (good : Watch → α → Prop) (run : WatchM α) : Prop :=
  ∀ w, w.Sound initial first → before.Grows w →
    (Watch.record (run w)).Sound initial first ∧ w.Grows (Watch.record (run w)) ∧
      ∀ a w', run w = .ok a w' → good w' a

/-- The value was met. -/
abbrev Met (w : Watch) (v : Value) : Prop :=
  v ∈ w.met

/-- The closures of the value are known. -/
abbrev Known (w : Watch) (v : Value) : Prop :=
  v.AllClosures (w.Knows initial)

end

namespace Preserves

variable {α β : Type} {initial : Environment} {first : Nat} {before : Watch}

theorem throw {good : Watch → α → Prop} (fault : Fault) :
    Preserves initial first before good (throw fault : WatchM α) :=
  fun w hw _ => ⟨hw, .refl w, fun _ _ h => nomatch h⟩

theorem pure {good : Watch → α → Prop} {a : α} (h : ∀ w, before.Grows w → good w a) :
    Preserves initial first before good (pure a) := by
  intro w hw hbefore
  refine ⟨hw, .refl w, fun b w' heq => ?_⟩
  cases heq
  exact h w hbefore

theorem imp {good better : Watch → α → Prop} {run : WatchM α}
    (h : Preserves initial first before better run)
    (himp : ∀ a w, w.Sound initial first → better w a → good w a) :
    Preserves initial first before good run := by
  intro w hw hbefore
  obtain ⟨hsound, hgrows, hbetter⟩ := h w hw hbefore
  refine ⟨hsound, hgrows, fun a w' heq => himp a w' ?_ (hbetter a w' heq)⟩
  rwa [heq] at hsound

theorem bind {good : Watch → α → Prop} {goodFirst : Watch → β → Prop} {run : WatchM β}
    {rest : β → WatchM α} (h : Preserves initial first before goodFirst run)
    (hrest : ∀ b w, w.Sound initial first → before.Grows w → goodFirst w b →
      Preserves initial first w good (rest b)) :
    Preserves initial first before good (run >>= rest) := by
  intro w hw hbefore
  obtain ⟨hsound, hgrows, hgood⟩ := h w hw hbefore
  cases hrun : run w with
  | error fault v =>
    rw [hrun] at hsound hgrows
    rw [EvalM.bind_run_error hrun]
    exact ⟨hsound, hgrows, fun _ _ heq => nomatch heq⟩
  | ok b v =>
    rw [hrun] at hsound hgrows
    rw [EvalM.bind_run_ok hrun]
    -- The rest goes on from the record that the first computation left.
    have hlast := hrest b v hsound (hbefore.trans hgrows) (hgood b v hrun) v hsound (.refl v)
    exact ⟨hlast.1, hgrows.trans hlast.2.1, hlast.2.2⟩

/-- A computation that makes no closures and gives no cells back. -/
theorem lift {act : EvalM Value} (hcells : ∀ next, next ≤ nextCell (act next))
    (hvalues : Ensures (Known initial before) (fun _ => True) act) :
    Preserves initial first before (Known initial) (liftM act) := by
  intro w hw hbefore
  have hle := hcells w.nextCell
  have hvalue := hvalues w.nextCell
  cases hact : act w.nextCell with
  | error fault next =>
    rw [hact] at hle
    rw [WatchM.lift_run_error hact]
    exact ⟨hw.moveOn hle, ⟨List.prefix_rfl, List.prefix_rfl⟩, fun _ _ heq => nomatch heq⟩
  | ok v next =>
    rw [hact] at hle hvalue
    rw [WatchM.lift_run_ok hact]
    refine ⟨hw.moveOn hle, ⟨List.prefix_rfl, List.prefix_rfl⟩, fun u w' heq => ?_⟩
    cases heq
    exact hbefore.value hvalue

theorem liftExcept {r : Except Fault α} :
    Preserves initial first before (fun _ a => r = .ok a) (liftM r) := by
  cases r with
  | error fault => exact throw fault
  | ok a => exact pure fun _ _ => rfl

/-- A new closure, in the next free cell. -/
theorem make (hinitial : initial.Identified first) {params : List String} {body : Expr}
    {env : Environment} (henv : env.AllClosures (before.Knows initial)) :
    Preserves initial first before (Known initial) (do
      let cell ← liftM EvalM.freshCell
      WatchM.make ⟨cell, params, body, env⟩) := by
  intro w hw hbefore
  have hgrows : w.Grows ⟨w.nextCell + 1, w.made ++ [⟨w.nextCell, params, body, env⟩], w.met⟩ :=
    ⟨List.prefix_append _ _, List.prefix_rfl⟩
  refine ⟨hw.make hinitial (hbefore.environment henv), hgrows, fun v w' heq => ?_⟩
  cases heq
  refine Value.allClosures_closure.2 ⟨.inr (List.mem_append_right _ (List.mem_singleton_self _)), ?_⟩
  exact (hbefore.trans hgrows).environment henv

theorem meet {run : WatchM Value} (h : Preserves initial first before (Known initial) run) :
    Preserves initial first before Met (.meet run) := by
  refine h.bind fun v w hw _ hv w' hw' hgrows => ?_
  refine ⟨hw'.meet (hgrows.value hv), ⟨List.prefix_rfl, List.prefix_append _ _⟩, fun u w'' heq => ?_⟩
  cases heq
  exact List.mem_append_right _ (List.mem_singleton_self _)

theorem mapM {f : β → WatchM Value} {items : List β}
    (h : ∀ b ∈ items, ∀ w, before.Grows w → Preserves initial first w Met (f b)) :
    Preserves initial first before (fun w vs => ∀ v ∈ vs, Met w v) (items.mapM f) := by
  induction items generalizing before with
  | nil => exact pure fun _ _ _ h => nomatch h
  | cons item items ih =>
    rw [List.mapM_cons]
    obtain ⟨hitem, hitems⟩ := List.forall_mem_cons.1 h
    refine (hitem before (.refl before)).bind fun v w _ hw hv => ?_
    have hrest := ih fun b hb w' hw' => hitems b hb w' (hw.trans hw')
    refine hrest.bind fun vs w' _ hw' hvs => pure fun w'' hw'' => ?_
    refine List.forall_mem_cons.2 ⟨(hw'.trans hw'').met.mem hv, fun u hu => ?_⟩
    exact hw''.met.mem (hvs u hu)

theorem known {run : WatchM Value} (h : Preserves initial first before Met run) :
    Preserves initial first before (Known initial) run :=
  h.imp fun v _ hw hmem => hw.met v hmem

end Preserves

theorem Environment.eq_extend_of_bindArgs {env scope : Environment} {params : List String}
    {args : List Value} (h : env.bindArgs params args = .ok scope) :
    scope = env.extend (params.zip args) := by
  unfold bindArgs at h
  split at h
  · cases h
    rfl
  · cases h

/-! ## Watched evaluation -/

/-- Watched evaluation and application with so many frames preserve soundness. -/
structure PreservedBy (initial : Environment) (first frames : Nat) : Prop where
  eval {e : Expr} {env : Environment} {before : Watch}
    (henv : env.AllClosures (before.Knows initial)) :
    Preserves initial first before Met (watchEval frames e env)
  part {e : Expr} {env : Environment} {before : Watch}
    (henv : env.AllClosures (before.Knows initial)) :
    Preserves initial first before Met (watchPart frames e env)
  apply {callee : Value} {args : List Value} {before : Watch}
    (hcallee : Known initial before callee) (hargs : ∀ v ∈ args, Known initial before v) :
    Preserves initial first before (Known initial) (watchApply frames callee args)

namespace PreservedBy

variable {initial : Environment} {first frames : Nat} (ih : PreservedBy initial first frames)
include ih

theorem branches {whole rest : List (Expr × Expr)} {env : Environment} {before : Watch}
    (henv : env.AllClosures (before.Knows initial)) :
    Preserves initial first before (Known initial) (watchBranches frames whole env rest) := by
  induction rest generalizing before with
  | nil => exact .lift (fun next => Nat.le_refl next) fun next => trivial
  | cons b rest ihrest =>
    rw [watchBranches]
    refine (ih.part henv).bind fun v w _ hw _ => ?_
    by_cases hv : v.isTrue = true
    · rw [if_pos hv]
      exact (ih.part (hw.environment henv)).known
    · rw [if_neg hv]
      exact ihrest (hw.environment henv)

theorem eval_succ (hinitial : initial.Identified first) {e : Expr} {env : Environment}
    {before : Watch} (henv : env.AllClosures (before.Knows initial)) :
    Preserves initial first before Met (watchEval (frames + 1) e env) := by
  have hcells (e : Expr) (next : Nat) : next ≤ nextCell (MiniLisp.eval (frames + 1) e env next) :=
    (eval_renumber (frames + 1) e env next 0).2
  cases e with
  | cond branches =>
    rw [watchEval_cond]
    exact (ih.branches henv).meet
  | lambda params body =>
    rw [watchEval_lambda]
    exact (Preserves.make hinitial henv).meet
  | app func args =>
    rw [watchEval_app]
    refine Preserves.meet ?_
    refine (ih.eval henv).bind fun head w _ hw hhead => ?_
    have hargs : Preserves initial first w (fun w values => ∀ v ∈ values, Met w v)
        (args.mapM fun arg => watchPart frames arg env) :=
      .mapM fun arg _ w' hw' => ih.part ((hw.trans hw').environment henv)
    -- The head stays met while the arguments are evaluated, and what is met is known.
    refine hargs.bind fun values w' hsound hw' hvalues => ?_
    exact ih.apply (hsound.met head (hw'.met.mem hhead)) fun v hv => hsound.met v (hvalues v hv)
  | literal text =>
    refine (Preserves.lift (hcells _) ?_).meet
    rw [eval_literal]
    exact .lift (fun v hv => henv.resolve hv) fun _ _ => trivial
  | identifier name =>
    refine (Preserves.lift (hcells _) ?_).meet
    rw [eval_identifier]
    exact .lift (fun v hv => henv.lookup hv) fun _ _ => trivial
  | quote d =>
    refine (Preserves.lift (hcells _) ?_).meet
    rw [eval_quote]
    refine .bind (.lift (fun _ _ => trivial) fun _ _ => trivial) fun found _ next => ?_
    exact found.allClosures_place next
  | branch | empty => exact (Preserves.lift (hcells _) fun next => trivial).meet

theorem apply_succ {callee : Value} {args : List Value} {before : Watch}
    (hcallee : Known initial before callee) (hargs : ∀ v ∈ args, Known initial before v) :
    Preserves initial first before (Known initial) (watchApply (frames + 1) callee args) := by
  have hcells (callee : Value) := le_nextCell_apply (frames + 1) callee args
  cases callee with
  | closure cell params body env =>
    rw [watchApply_closure]
    refine Preserves.liftExcept.bind fun scope w _ hw hscope => ?_
    have henv := (Value.allClosures_closure.1 hcallee).2
    have hextended : Environment.AllClosures (before.Knows initial)
        (Environment.extend env (params.zip args)) :=
      henv.extend fun b hb => hargs b.2 (List.of_mem_zip hb).2
    rw [← Environment.eq_extend_of_bindArgs hscope] at hextended
    exact (ih.part (hw.environment hextended)).known
  | primitive op =>
    refine .lift (hcells _) ?_
    exact Primitive.ensures_call (fun _ _ => trivial) hargs
  | _ =>
    refine .lift (hcells _) ?_
    rw [apply_uncallable _ rfl]
    exact ensures_report (fun _ _ => trivial) trivial

end PreservedBy

-- By induction on the frames; that records stay sound carries what is known of values to the next step.
theorem preservedBy {initial : Environment} {first : Nat} (hinitial : initial.Identified first)
    (frames : Nat) : PreservedBy initial first frames := by
  induction frames with
  | zero => exact ⟨fun _ => .throw _, fun _ => .throw _, fun _ _ => .throw _⟩
  | succ frames ih => exact ⟨ih.eval_succ hinitial, ih.eval, ih.apply_succ⟩

theorem preserves_watchText {initial : Environment} {first : Nat} (hinitial : initial.Identified first)
    (frames : Nat) (code : String) (before : Watch) :
    Preserves initial first before Met (watchText frames initial code) := by
  refine Preserves.liftExcept.bind fun e w _ _ _ => (preservedBy hinitial frames).eval ?_
  exact fun cell params body env hreaches => .inl hreaches

/-! ## Closures that are told apart -/

namespace Watch

/-- The closures stem from one evaluation of a lambda: one of the run, or one before the run that made a
closure of its environment. -/
def SameOrigin (initial : Environment) (w : Watch) (k k' : Closure) : Prop :=
  (∃ i : Nat, w.made[i]? = some k ∧ w.made[i]? = some k') ∨ initial.Reaches k.value ∧ k' = k

/-- The closure is one of the environment that the run started in, or can be got at from a value that the
run met. -/
def Meets (initial : Environment) (w : Watch) (k : Closure) : Prop :=
  initial.Reaches k.value ∨ ∃ v ∈ w.met, v.Reaches k.value

/-- Closures are equal only to themselves. -/
structure TellsApart (initial : Environment) (w : Watch) : Prop where
  /-- A new closure differs from those of the environment, those that it captured, and those that were made
  before it. -/
  new : ∀ (i : Nat) (k k' : Closure), w.made[i]? = some k →
    (initial.Reaches k'.value ∨ k.env.Reaches k'.value ∨ ∃ j < i, w.made[j]? = some k') →
    k.value.isEqual k'.value = false ∧ k'.value.isEqual k.value = false
  /-- A closure that is met is one of the environment, or was made by exactly one evaluation. -/
  origin : ∀ k, w.Meets initial k → (initial.Reaches k.value ∧ k ∉ w.made) ∨
    (¬ initial.Reaches k.value ∧ ∃! i : Nat, w.made[i]? = some k)
  equal : ∀ k k', w.Meets initial k → w.Meets initial k' →
    (k.value.isEqual k'.value = true ↔ w.SameOrigin initial k k')
  parts : ∀ k k', w.SameOrigin initial k k' →
    k.params = k'.params ∧ k.body = k'.body ∧ k.env = k'.env

end Watch

theorem Closure.isEqual_value (k k' : Closure) :
    k.value.isEqual k'.value = true ↔ k.cell = k'.cell :=
  beq_iff_eq

theorem Closure.isEqual_of_lt {k k' : Closure} (h : k'.cell < k.cell) :
    k.value.isEqual k'.value = false ∧ k'.value.isEqual k.value = false := by
  constructor <;> rw [Bool.eq_false_iff, ne_eq, isEqual_value] <;> omega

namespace Watch.Sound

variable {initial : Environment} {first : Nat} {w : Watch}

theorem lt_of_made (h : w.Sound initial first) {i j : Nat} {k k' : Closure} (hk : w.made[i]? = some k)
    (hk' : w.made[j]? = some k') (hlt : j < i) : k'.cell < k.cell := by
  obtain ⟨hi, rfl⟩ := List.getElem?_eq_some_iff.1 hk
  obtain ⟨hj, rfl⟩ := List.getElem?_eq_some_iff.1 hk'
  exact List.pairwise_iff_getElem.1 h.ordered j i hj hi hlt

/-- Two evaluations of lambdas never make closures in one cell. -/
theorem index_eq (h : w.Sound initial first) {i j : Nat} {k k' : Closure} (hk : w.made[i]? = some k)
    (hk' : w.made[j]? = some k') (hcell : k.cell = k'.cell) : i = j := by
  rcases Nat.lt_trichotomy i j with hlt | heq | hlt
  · have hcells := h.lt_of_made hk' hk hlt
    omega
  · exact heq
  · have hcells := h.lt_of_made hk hk' hlt
    omega

theorem lt_of_reaches (h : w.Sound initial first) (hinitial : initial.Identified first)
    {k k' : Closure} (hk : k ∈ w.made) (hreaches : initial.Reaches k'.value) : k'.cell < k.cell := by
  have hold := hinitial.before _ _ _ _ hreaches
  have hnew := (h.cells k hk).1
  omega

theorem known_of_meets (h : w.Sound initial first) {k : Closure} (hmeets : w.Meets initial k) :
    initial.Reaches k.value ∨ k ∈ w.made := by
  rcases hmeets with hreaches | ⟨v, hv, hreaches⟩
  · exact .inl hreaches
  · exact h.met v hv _ _ _ _ hreaches

theorem tellsApart (h : w.Sound initial first) (hinitial : initial.Identified first) :
    w.TellsApart initial where
  new i k k' hk hold := by
    have hmem := List.mem_of_getElem? hk
    apply Closure.isEqual_of_lt
    rcases hold with hreaches | hreaches | ⟨j, hlt, hk'⟩
    · exact h.lt_of_reaches hinitial hmem hreaches
    · exact h.captured k hmem _ _ _ _ hreaches
    · exact h.lt_of_made hk hk' hlt
  origin k hmeets := by
    have hdisjoint (hreaches : initial.Reaches k.value) : k ∉ w.made := fun hmem =>
      Nat.lt_irrefl _ (h.lt_of_reaches hinitial hmem hreaches)
    rcases h.known_of_meets hmeets with hreaches | hmem
    · exact .inl ⟨hreaches, hdisjoint hreaches⟩
    · obtain ⟨i, hi⟩ := List.mem_iff_getElem?.1 hmem
      refine .inr ⟨fun hreaches => hdisjoint hreaches hmem, i, hi, fun j hj => ?_⟩
      exact h.index_eq hj hi rfl
  equal k k' hmeets hmeets' := by
    rw [Closure.isEqual_value]
    constructor
    · intro hcell
      -- A closure of the environment never shares its cell with one that the run made.
      rcases h.known_of_meets hmeets with hreaches | hmem
      · rcases h.known_of_meets hmeets' with hreaches' | hmem'
        · exact .inr ⟨hreaches, (hinitial.one k k' hreaches hreaches' hcell).symm⟩
        · have hlt := h.lt_of_reaches hinitial hmem' hreaches
          omega
      · rcases h.known_of_meets hmeets' with hreaches' | hmem'
        · have hlt := h.lt_of_reaches hinitial hmem hreaches'
          omega
        · obtain ⟨i, hi⟩ := List.mem_iff_getElem?.1 hmem
          obtain ⟨j, hj⟩ := List.mem_iff_getElem?.1 hmem'
          obtain rfl := h.index_eq hi hj hcell
          exact .inl ⟨i, hi, hj⟩
    · rintro (⟨i, hi, hi'⟩ | ⟨-, rfl⟩)
      · rw [hi, Option.some.injEq] at hi'
        rw [hi']
      · rfl
  parts k k' hsame := by
    rcases hsame with ⟨i, hi, hi'⟩ | ⟨-, rfl⟩
    · rw [hi, Option.some.injEq] at hi'
      rw [hi']
      exact ⟨rfl, rfl, rfl⟩
    · exact ⟨rfl, rfl, rfl⟩

end Watch.Sound

/-! ## Runs and sessions -/

theorem Watches.run_eq_ok {run : WatchM Value} {act : EvalM Value} (h : Watches run act) {w : Watch}
    {v : Value} {m : Nat} (hact : act w.nextCell = .ok v m) : ∃ w', run w = .ok v w' := by
  have houtcome := h w
  rw [hact] at houtcome
  cases hrun : run w with
  | ok u w' =>
    rw [hrun, Watch.outcome] at houtcome
    cases houtcome
    exact ⟨w', rfl⟩
  | error fault w' =>
    rw [hrun, Watch.outcome] at houtcome
    cases houtcome

/-- The value of a watched computation is in its record. -/
theorem Preserves.mem_met {initial : Environment} {first : Nat} {w : Watch} {run : WatchM Value}
    {act : EvalM Value} (h : Preserves initial first w Met run) (hwatches : Watches run act)
    (hw : w.Sound initial first) {v : Value} {m : Nat} (hact : act w.nextCell = .ok v m) :
    v ∈ (Watch.record (run w)).met := by
  obtain ⟨w', hrun⟩ := hwatches.run_eq_ok hact
  have hmet := (h w hw (.refl w)).2.2 v w' hrun
  rw [hrun]
  exact hmet

namespace Interpreter

variable {interp : Interpreter} {first : Nat} (hinitial : interp.env.Identified first)
include hinitial

theorem watchStep_preserves {w : Watch} (hw : w.Sound interp.env first) (s : Session.Step) :
    (interp.watchStep w s).Sound interp.env first ∧ w.Grows (interp.watchStep w s) := by
  cases s with
  | eval code =>
    obtain ⟨hsound, hgrows, -⟩ :=
      preserves_watchText hinitial interp.frames code w w hw (.refl w)
    exact ⟨hsound, hgrows⟩
  | _ => exact ⟨hw, .refl w⟩

theorem watchSession_preserves {w : Watch} (hw : w.Sound interp.env first)
    (steps : List Session.Step) :
    (interp.watchSession steps w).Sound interp.env first ∧ w.Grows (interp.watchSession steps w) := by
  induction steps generalizing w with
  | nil => exact ⟨hw, .refl w⟩
  | cons s rest ih =>
    obtain ⟨hsound, hgrows⟩ := watchStep_preserves hinitial hw s
    obtain ⟨hlast, hgrowsLast⟩ := ih hsound
    exact ⟨hlast, hgrows.trans hgrowsLast⟩

theorem mem_met_of_eval {w : Watch} (hw : w.Sound interp.env first) {code : String} {v : Value}
    (h : (interp.eval code w.nextCell).1 = .ok v) : v ∈ (interp.watchStep w (.eval code)).met := by
  rw [eval_eq] at h
  have hpreserves := preserves_watchText hinitial interp.frames code w
  cases hrun : runText interp.frames interp.env code w.nextCell with
  | ok u m =>
    rw [hrun] at h
    cases h
    exact hpreserves.mem_met (watchText_watches interp.frames interp.env code) hw hrun
  | error fault m =>
    rw [hrun] at h
    cases fault <;> cases h

/-- The values that the steps of a session come to are in its record. -/
theorem mem_met_of_session {w : Watch} (hw : w.Sound interp.env first) {steps : List Session.Step}
    {i : Nat} {code : String} {v : Value} (hstep : steps[i]? = some (.eval code))
    (h : (interp.eval code (interp.session (steps.take i) w.nextCell).2).1 = .ok v) :
    v ∈ (interp.watchSession steps w).met := by
  induction steps generalizing w i with
  | nil => cases hstep
  | cons s rest ih =>
    obtain ⟨hsound, -⟩ := watchStep_preserves hinitial hw s
    cases i with
    | zero =>
      cases hstep
      have hmem := mem_met_of_eval hinitial hw h
      exact (watchSession_preserves hinitial hsound rest).2.met.mem hmem
    | succ i =>
      rw [List.take_succ_cons, session_cons, ← nextCell_watchStep] at h
      exact ih hsound hstep h

end Interpreter

/-- Closures are equal only to themselves, in every run and in every session. The closure that an evaluation
of a lambda makes differs from all older ones, and two closures that are met are equal exactly if they
stem from one evaluation of one lambda. -/
theorem closures_equal_only_themselves {env : Environment} {next : Nat} (h : env.Identified next) :
    (∀ (frames : Nat) (e : Expr),
      let run := watchEval frames e env (.start next)
      Watch.outcome run = eval frames e env next ∧
        (∀ v m, eval frames e env next = .ok v m → v ∈ (Watch.record run).met) ∧
        (Watch.record run).TellsApart env) ∧
      ∀ (maxRecursion : Int) (steps : List Session.Step),
        let interp : Interpreter := ⟨env, maxRecursion⟩
        let w := interp.watchSession steps (.start next)
        w.nextCell = (interp.session steps next).2 ∧
          (∀ (i : Nat) (code : String) (v : Value), steps[i]? = some (.eval code) →
            (interp.eval code (interp.session (steps.take i) next).2).1 = .ok v → v ∈ w.met) ∧
          w.TellsApart env := by
  have hstart := Watch.Sound.start env next
  refine ⟨fun frames e => ?_, fun maxRecursion steps => ?_⟩
  · have hwatches := watchEval_watches frames e env
    have hpreserves : Preserves env next (.start next) Met (watchEval frames e env) :=
      (preservedBy h frames).eval fun cell params body env hreaches => .inl hreaches
    refine ⟨hwatches _, fun v m hrun => hpreserves.mem_met hwatches hstart hrun, ?_⟩
    exact (hpreserves _ hstart (.refl _)).1.tellsApart h
  · intro interp w
    have hinitial : interp.env.Identified next := h
    refine ⟨interp.nextCell_watchSession steps _, fun i code v hstep hrun => ?_, ?_⟩
    · exact Interpreter.mem_met_of_session hinitial hstart hstep hrun
    · exact (Interpreter.watchSession_preserves hinitial hstart steps).1.tellsApart h

section

/-- A program that calls one closure twice, and so evaluates one lambda twice in environments that bind the
same. -/
abbrev twiceMade : Expr :=
  .app (.lambda ["a", "b"] (.literal "a")) [.app (.literal "g") [], .app (.literal "g") []]

/-- Two closures of one lambda that look the same are told apart, also in a session that runs their program
once more. -/
theorem twice_made_closures_differ :
    let env : Environment := [[("g", .closure 0 [] (.lambda ["x"] (.literal "x")) [])]]
    let k (cell : Nat) : Closure := ⟨cell, ["x"], .literal "x", [[]]⟩
    let made : List Closure := (Watch.record (watchEval 9 twiceMade env (.start 1))).made
    let interp : Interpreter := ⟨env, 2000⟩
    let steps : List Session.Step := [.eval "((lambda (a b) a) (g) (g))", .read ")", .eval "(g 1)"]
    env.Identified 1 ∧ made[1]? = some (k 2) ∧ made[2]? = some (k 3) ∧
      (k 3).value.isEqual (k 2).value = false ∧
      (interp.watchSession steps (.start 1)).TellsApart env := by
  intro env k made interp steps
  have honly (v : Value) (h : env.Reaches v) :
      v = .closure 0 [] (.lambda ["x"] (.literal "x")) [] := by
    obtain ⟨frame, hframe, binding, hbinding, hreaches⟩ := h
    obtain rfl := List.mem_singleton.1 hframe
    obtain rfl := List.mem_singleton.1 hbinding
    cases hreaches with
    | refl => rfl
    | captured hframe => cases hframe
  have hidentified : env.Identified 1 := by
    refine ⟨fun cell params body captured hreaches => ?_, fun k k' hreaches hreaches' _ => ?_⟩
    · cases honly _ hreaches
      decide
    · have hk := honly _ hreaches
      have hk' := honly _ hreaches'
      cases k
      cases k'
      cases hk
      cases hk'
      rfl
  have hsecond : made[1]? = some (k 2) := by rfl
  have hthird : made[2]? = some (k 3) := by rfl
  obtain ⟨hruns, hsessions⟩ := closures_equal_only_themselves hidentified
  have hnew := (hruns 9 twiceMade).2.2.new 2 _ _ hthird (.inr (.inr ⟨1, by decide, hsecond⟩))
  exact ⟨hidentified, hsecond, hthird, hnew.1, (hsessions 2000 steps).2.2⟩

end

end MiniLisp
