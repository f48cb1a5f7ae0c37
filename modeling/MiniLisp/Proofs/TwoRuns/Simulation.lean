import MiniLisp.Proofs.TwoRuns.SideBySide

/-!
Runs of matching expressions in environments that agree stay alike: with any number of frames they come to
values that are alike, or to faults that correspond (`Likeness.runs_eval`).
-/

namespace MiniLisp.Likeness

variable {L : Likeness}

/-- How the outcomes of runs correspond that go on side by side. -/
def coupling (L : Likeness) : Coupling where
  counters := L.counters
  faults := L.Faults
  excused := L.excused

/-- The two computations come to values that are alike, or to faults that correspond. -/
abbrev Runs (L : Likeness) (first second : EvalM Value) : Prop :=
  L.coupling.Runs L.Like first second

/-! ## Atoms -/

theorem runs_atom {R : Atom → Atom → Prop} {env env' : Environment} (hagrees : L.Agrees R env env')
    {a b : Atom} (h : R a b) : L.Runs (liftM (env.valueOf a)) (liftM (env'.valueOf b)) := by
  have hnames := hagrees.names h
  cases hv : env.get? a.name with
  | some v =>
    rw [hv] at hnames
    cases hw : env'.get? b.name with
    | some w =>
      rw [Environment.valueOf_of_bound hv, Environment.valueOf_of_bound hw]
      exact .pure (hagrees.values h hv hw)
    | none =>
      rw [hw] at hnames
      cases hnames
  | none =>
    rw [hv] at hnames
    rw [Environment.valueOf_of_unbound hv]
    generalize hw : env'.get? b.name = found at hnames
    cases hnames with
    | free hsame =>
      subst hsame
      rw [Environment.valueOf_of_unbound hw]
      cases hvalue : Environment.valueOf [] a with
      | ok v => exact .pure (.plain (plain_of_valueOf_nil hvalue))
      | error fault => exact .throw (.refl L fault)
    | excused hvalue hfault =>
      rw [hvalue]
      exact .throw_excused hfault _

/-! ## Scopes -/

/-- The scopes of two calls agree on the atoms of the bodies if the scopes around agree on the others and
the arguments are alike. -/
theorem Agrees.extend {R : Atom → Atom → Prop} {env env' : Environment} (h : L.Agrees R env env')
    {params others : List String} {args args' : List Value}
    (hargs : List.Forall₂ L.Like args args') (count : args.length = params.length)
    (count' : args'.length = others.length) :
    L.Agrees (under params others R) (env.extend (params.zip args))
      (env'.extend (others.zip args')) := by
  -- Atoms that correspond are in the same slot, or neither is a parameter.
  have hget {a b : Atom} (hslot : slot params a.name = slot others b.name) :
      (∃ i, slot params a.name = some i ∧
        (env.extend (params.zip args)).get? a.name = args.reverse[i]? ∧
        (env'.extend (others.zip args')).get? b.name = args'.reverse[i]?) ∨
      (slot params a.name = none ∧
        (env.extend (params.zip args)).get? a.name = env.get? a.name ∧
        (env'.extend (others.zip args')).get? b.name = env'.get? b.name) := by
    rw [Environment.get?_extend_zip env count, Environment.get?_extend_zip env' count', ← hslot]
    cases slot params a.name with
    | some i => exact .inl ⟨i, rfl, rfl, rfl⟩
    | none => exact .inr ⟨rfl, rfl, rfl⟩
  -- Slots count from the last argument.
  have hreverse : List.Forall₂ L.Like args.reverse args'.reverse := List.rel_reverse hargs
  refine ⟨fun {a b} hab => ?_, fun {a b v w} hab hv hw => ?_⟩
  · rcases hget hab.1 with ⟨i, hi, hv, hw⟩ | ⟨hnone, hv, hw⟩
    · have hlt : i < args.reverse.length := by
        rw [List.length_reverse, count]
        exact slot_lt hi
      have hlt' : i < args'.reverse.length := hreverse.length_eq ▸ hlt
      rw [hv, hw, List.getElem?_eq_getElem hlt, List.getElem?_eq_getElem hlt']
      exact .bound
    · rw [hv, hw]
      exact h.names (hab.2 hnone)
  · rcases hget hab.1 with ⟨i, hi, hv', hw'⟩ | ⟨hnone, hv', hw'⟩
    · rw [hv'] at hv
      rw [hw'] at hw
      obtain ⟨hlt, rfl⟩ := List.getElem?_eq_some_iff.1 hv
      obtain ⟨hlt', rfl⟩ := List.getElem?_eq_some_iff.1 hw
      exact List.Forall₂.get hreverse hlt hlt'
    · rw [hv'] at hv
      rw [hw'] at hw
      exact h.values (hab.2 hnone) hv hw

/-! ## Evaluation -/

theorem MatchesAll.forall₂ {R : Atom → Atom → Prop} : ∀ {es others : List Expr},
    L.MatchesAll R es others → List.Forall₂ (L.Matches R) es others
  | _, _, .nil => .nil
  | _, _, .cons he h => .cons he h.forall₂

theorem MatchesBranches.forall₂ {R : Atom → Atom → Prop} :
    ∀ {branches others : List (Expr × Expr)}, L.MatchesBranches R branches others →
      List.Forall₂ (fun b b' => L.Matches R b.1 b'.1 ∧ L.Matches R b.2 b'.2) branches others
  | _, _, .nil => .nil
  | _, _, .cons hq ha h => .cons ⟨hq, ha⟩ h.forall₂

/-- Matching expressions in environments that agree on their atoms. -/
def Corresponds (L : Likeness) (e : Expr) (env : Environment) (e' : Expr) (env' : Environment) : Prop :=
  ∃ R, L.Matches R e e' ∧ L.Agrees R env env'

theorem Corresponds.parts {e e' : Expr} {env env' : Environment}
    (h : L.Corresponds e env e' env') :
    L.Parts L.sameKinds L.Like L.Corresponds env env' e e' := by
  obtain ⟨R, he, henv⟩ := h
  cases he with
  | atom ha hb _ hab => exact .atom ha hb (runs_atom henv hab)
  | quote => exact .quote
  | branch halike => exact .branch halike
  | cond halike h =>
    exact .cond halike (h.forall₂.imp fun b b' hb => ⟨⟨R, hb.1, henv⟩, R, hb.2, henv⟩)
  | lambda hbinders halike hbody =>
    -- What the closures capture are the environments that agree on the atoms of their bodies.
    exact .lambda fun c d hcell => .closure hcell hbinders halike hbody (fun _ _ => henv.names)
      fun _ _ _ _ => henv.values
  | app hfunc hargs =>
    exact .app ⟨R, hfunc, henv⟩ (hargs.forall₂.imp fun a a' ha => ⟨R, ha, henv⟩)
  | empty => exact .empty

/-- Values that are alike, and matching expressions, are handed on by each step. -/
def sideBySide (L : Likeness) : SideBySide where
  like := L
  endings := L.sameKinds
  values := L.Like
  code := L.Corresponds
  resembles h := h.resembles
  plain := .plain
  pair := .pair
  tail h := by
    cases h.toCases with
    | plain hplain => cases hplain
    | pair _ _ htail => exact htail
  call h hargs count count' := by
    cases h.toCases with
    | plain hplain => cases hplain
    | closure _ _ _ hbody hagrees => exact ⟨_, hbody, hagrees.extend hargs count count'⟩
  parts := Corresponds.parts

/-- Expressions that match, evaluated in environments that agree on their atoms, come to values that are
alike or to faults that correspond, with every number of frames. -/
theorem runs_eval (frames : Nat) {R : Atom → Atom → Prop} {e e' : Expr} {env env' : Environment}
    (he : L.Matches R e e') (henv : L.Agrees R env env') :
    L.Runs (eval frames e env) (eval frames e' env') :=
  L.sideBySide.runs_eval frames ⟨R, he, henv⟩

end MiniLisp.Likeness
