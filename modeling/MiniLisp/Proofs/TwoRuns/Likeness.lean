import MiniLisp.Proofs.Reachability.Cells
import MiniLisp.Proofs.Scopes.CallFrame
import MiniLisp.Proofs.Scopes.FreeNames

/-!
Likeness of expressions, environments and values. Two runs that go on side by side stay alike in the sense
of a `Likeness`, which says how the cells, the names, the parameter lists and the texts of the one may
differ from those of the other.

Expressions match if they have the same form and their atoms correspond, where an atom under a lambda
corresponds by the parameter that it means. Closures are alike if their bodies match and what they
captured agrees on the names that the bodies mean by it; so closures may be alike that have captured
different environments.
-/

namespace MiniLisp

/-- How two runs that go on side by side may differ. -/
structure Likeness where
  /-- The cells that two related pairs or closures may have. -/
  cells : Nat → Nat → Prop
  /-- The cells of values that are the same in both runs. -/
  keeps : Nat → Prop
  /-- The cells of pairs and closures that are made in the same step of both runs. -/
  made : Nat → Nat → Prop
  /-- The next free cells of both runs. -/
  counters : Nat → Nat → Prop
  /-- Atoms that may stand in the same place. -/
  atoms : Atom → Atom → Prop
  /-- Parameter lists that may stand in the same place. -/
  binders : List String → List String → Prop
  /-- Bodies, conditionals and bare branches that may stand in the same place. -/
  alike : Expr → Expr → Prop
  /-- Whether all messages have to be the same. -/
  sameTexts : Prop
  /-- Faults of the first run after which nothing is asked of the second. -/
  excused : Fault → Prop
  cells_iff {a b c d : Nat} (hac : cells a c) (hbd : cells b d) : a = b ↔ c = d
  cells_of_keeps {a : Nat} (h : keeps a) : cells a a
  cells_of_made {a b : Nat} (h : made a b) : cells a b
  made_of_counters {m n : Nat} (h : counters m n) : made m n
  counters_succ {m n : Nat} (h : counters m n) : counters (m + 1) (n + 1)
  atoms_refl (a : Atom) : atoms a a
  binders_refl (params : List String) : binders params params
  binders_length {params others : List String} (h : binders params others) :
    params.length = others.length
  binders_eq {params others : List String} (same : sameTexts) (h : binders params others) :
    params = others
  alike_refl (e : Expr) : alike e e
  alike_sourceFrames {e e' : Expr} (h : alike e e') : e.sourceFrames = e'.sourceFrames
  alike_debugFrames {e e' : Expr} (h : alike e e') : e.debugFrames = e'.debugFrames
  alike_source {e e' : Expr} (same : sameTexts) (h : alike e e') : e.source = e'.source
  alike_branch {question answer question' answer' : Expr} (same : sameTexts)
    (h : alike (.branch question answer) (.branch question' answer')) :
    (Expr.branch question answer).debugForm = (Expr.branch question' answer').debugForm

namespace Likeness

/-- Faults that both runs may end with at the same point. -/
structure Faults (L : Likeness) (f g : Fault) : Prop where
  kind : f.kind = g.kind
  outOfFrames : f = .outOfFrames ↔ g = .outOfFrames
  message : L.sameTexts → f.message = g.message

/-! ## Expressions -/

/-- Atoms in the bodies of two lambdas correspond if they mean the same parameter, or if they mean none
and correspond outside. -/
def under (params others : List String) (R : Atom → Atom → Prop) (a b : Atom) : Prop :=
  slot params a.name = slot others b.name ∧ (slot params a.name = none → R a b)

mutual

/-- Two expressions have the same form, and their free atoms correspond. -/
inductive Matches (L : Likeness) : (Atom → Atom → Prop) → Expr → Expr → Prop
  | atom {R : Atom → Atom → Prop} {e e' : Expr} {a b : Atom} (he : e.atom? = some a)
      (he' : e'.atom? = some b) (hatoms : L.atoms a b) (h : R a b) : Matches L R e e'
  | quote {R : Atom → Atom → Prop} {d : Expr} : Matches L R (.quote d) (.quote d)
  | branch {R : Atom → Atom → Prop} {q a q' a' : Expr}
      (halike : L.alike (.branch q a) (.branch q' a')) (hq : Matches L R q q')
      (ha : Matches L R a a') : Matches L R (.branch q a) (.branch q' a')
  | cond {R : Atom → Atom → Prop} {branches others : List (Expr × Expr)}
      (halike : L.alike (.cond branches) (.cond others)) (h : MatchesBranches L R branches others) :
      Matches L R (.cond branches) (.cond others)
  | lambda {R : Atom → Atom → Prop} {params others : List String} {body body' : Expr}
      (hbinders : L.binders params others) (halike : L.alike body body')
      (h : Matches L (under params others R) body body') :
      Matches L R (.lambda params body) (.lambda others body')
  | app {R : Atom → Atom → Prop} {func func' : Expr} {args others : List Expr}
      (hfunc : Matches L R func func') (hargs : MatchesAll L R args others) :
      Matches L R (.app func args) (.app func' others)
  | empty {R : Atom → Atom → Prop} : Matches L R .empty .empty

/-- The branches of two conditionals match one by one. -/
inductive MatchesBranches (L : Likeness) :
    (Atom → Atom → Prop) → List (Expr × Expr) → List (Expr × Expr) → Prop
  | nil {R : Atom → Atom → Prop} : MatchesBranches L R [] []
  | cons {R : Atom → Atom → Prop} {q a q' a' : Expr} {branches others : List (Expr × Expr)}
      (hq : Matches L R q q') (ha : Matches L R a a') (h : MatchesBranches L R branches others) :
      MatchesBranches L R ((q, a) :: branches) ((q', a') :: others)

/-- Two lists of expressions match one by one. -/
inductive MatchesAll (L : Likeness) : (Atom → Atom → Prop) → List Expr → List Expr → Prop
  | nil {R : Atom → Atom → Prop} : MatchesAll L R [] []
  | cons {R : Atom → Atom → Prop} {e e' : Expr} {es others : List Expr} (he : Matches L R e e')
      (h : MatchesAll L R es others) : MatchesAll L R (e :: es) (e' :: others)

end

variable {L : Likeness}

mutual

/-- An expression matches itself if its free atoms correspond to themselves. -/
theorem Matches.refl : ∀ (e : Expr) {R : Atom → Atom → Prop},
    (∀ a : Atom, a.name ∈ e.freeNames → R a a) → L.Matches R e e
  | .literal text, _, h =>
    .atom rfl rfl (L.atoms_refl _) (h (.literal text) (Expr.mem_freeNames_of_atom rfl))
  | .identifier name, _, h =>
    .atom rfl rfl (L.atoms_refl _) (h (.identifier name) (Expr.mem_freeNames_of_atom rfl))
  | .quote d, _, _ => .quote
  | .branch question answer, _, h => by
    rw [Expr.freeNames] at h
    exact .branch (L.alike_refl _) (Matches.refl question fun a ha => h a (List.mem_append_left _ ha))
      (Matches.refl answer fun a ha => h a (List.mem_append_right _ ha))
  | .cond branches, _, h => by
    rw [Expr.freeNames] at h
    exact .cond (L.alike_refl _) (MatchesBranches.refl branches h)
  | .lambda params body, _, h => by
    refine .lambda (L.binders_refl params) (L.alike_refl body) (Matches.refl body fun a ha => ?_)
    refine ⟨rfl, fun hslot => h a ?_⟩
    exact Expr.mem_freeNames_lambda.2 ⟨ha, slot_eq_none_iff.1 hslot⟩
  | .app func args, _, h => by
    rw [Expr.freeNames] at h
    exact .app (Matches.refl func fun a ha => h a (List.mem_append_left _ ha))
      (MatchesAll.refl args fun a ha => h a (List.mem_append_right _ ha))
  | .empty, _, _ => .empty

theorem MatchesBranches.refl : ∀ (branches : List (Expr × Expr)) {R : Atom → Atom → Prop},
    (∀ a : Atom, a.name ∈ Expr.branchFreeNames branches → R a a) →
      L.MatchesBranches R branches branches
  | [], _, _ => .nil
  | (question, answer) :: branches, _, h => by
    simp only [Expr.branchFreeNames, List.mem_append] at h
    exact .cons (Matches.refl question fun a ha => h a (.inl (.inl ha)))
      (Matches.refl answer fun a ha => h a (.inl (.inr ha)))
      (MatchesBranches.refl branches fun a ha => h a (.inr ha))

theorem MatchesAll.refl : ∀ (es : List Expr) {R : Atom → Atom → Prop},
    (∀ a : Atom, a.name ∈ Expr.freeNamesOf es → R a a) → L.MatchesAll R es es
  | [], _, _ => .nil
  | e :: es, _, h => by
    simp only [Expr.freeNamesOf, List.mem_append] at h
    exact .cons (Matches.refl e fun a ha => h a (.inl ha))
      (MatchesAll.refl es fun a ha => h a (.inr ha))

end

mutual

/-- Every free name of an expression is that of an atom which corresponds to one of its counterpart. -/
theorem Matches.exists_atom : ∀ {R : Atom → Atom → Prop} {e e' : Expr}, L.Matches R e e' →
    ∀ name ∈ e.freeNames, ∃ a b : Atom, a.name = name ∧ L.atoms a b ∧ R a b
  | _, _, _, .atom (e := e) (a := a) (b := b) he _ hatoms h, name, hname => by
    refine ⟨a, b, ?_, hatoms, h⟩
    cases e with
    | literal text => cases he; exact (List.mem_singleton.1 (by rwa [Expr.freeNames] at hname)).symm
    | identifier text => cases he; exact (List.mem_singleton.1 (by rwa [Expr.freeNames] at hname)).symm
    | _ => cases he
  | _, _, _, .quote, name, hname => by
    rw [Expr.freeNames] at hname
    cases hname
  | _, _, _, .branch _ hq ha, name, hname => by
    have hquestion := hq.exists_atom name
    have hanswer := ha.exists_atom name
    rw [Expr.freeNames] at hname
    exact (List.mem_append.1 hname).elim hquestion hanswer
  | _, _, _, .cond _ h, name, hname => by
    have hbranches := h.exists_atom name
    rw [Expr.freeNames] at hname
    exact hbranches hname
  | _, _, _, .lambda _ _ h, name, hname => by
    have hbody := h.exists_atom name
    obtain ⟨hmem, hparams⟩ := Expr.mem_freeNames_lambda.1 hname
    obtain ⟨a, b, rfl, hatoms, -, hout⟩ := hbody hmem
    exact ⟨a, b, rfl, hatoms, hout (slot_eq_none_iff.2 hparams)⟩
  | _, _, _, .app hfunc hargs, name, hname => by
    have hhead := hfunc.exists_atom name
    have hrest := hargs.exists_atom name
    rw [Expr.freeNames] at hname
    exact (List.mem_append.1 hname).elim hhead hrest
  | _, _, _, .empty, name, hname => by
    rw [Expr.freeNames] at hname
    cases hname

theorem MatchesBranches.exists_atom : ∀ {R : Atom → Atom → Prop}
    {branches others : List (Expr × Expr)}, L.MatchesBranches R branches others →
    ∀ name ∈ Expr.branchFreeNames branches, ∃ a b : Atom, a.name = name ∧ L.atoms a b ∧ R a b
  | _, _, _, .nil, name, hname => by
    rw [Expr.branchFreeNames] at hname
    cases hname
  | _, _, _, .cons hq ha h, name, hname => by
    have hquestion := hq.exists_atom name
    have hanswer := ha.exists_atom name
    have hrest := h.exists_atom name
    rw [Expr.branchFreeNames, List.mem_append, List.mem_append] at hname
    exact hname.elim (fun h => h.elim hquestion hanswer) hrest

theorem MatchesAll.exists_atom : ∀ {R : Atom → Atom → Prop} {es others : List Expr},
    L.MatchesAll R es others →
    ∀ name ∈ Expr.freeNamesOf es, ∃ a b : Atom, a.name = name ∧ L.atoms a b ∧ R a b
  | _, _, _, .nil, name, hname => by
    rw [Expr.freeNamesOf] at hname
    cases hname
  | _, _, _, .cons he h, name, hname => by
    have hfirst := he.exists_atom name
    have hrest := h.exists_atom name
    rw [Expr.freeNamesOf, List.mem_append] at hname
    exact hname.elim hfirst hrest

end

/-! ## Values -/

/-- What two environments bind corresponding atoms to: both something, or both nothing, in which case the
atoms are the same. The first may also bind nothing to an atom if that is excused. -/
inductive NamesAlike (L : Likeness) (a b : Atom) : Option Value → Option Value → Prop
  | bound {v w : Value} : NamesAlike L a b (some v) (some w)
  | free (h : a = b) : NamesAlike L a b none none
  | excused {fault : Fault} {found : Option Value}
      (h : Environment.valueOf [] a = .error fault) (hfault : L.excused fault) :
      NamesAlike L a b none found

theorem NamesAlike.isSome_eq {a b : Atom} {v w : Option Value} (h : L.NamesAlike a b v w)
    (hexcused : ∀ fault, ¬ L.excused fault) : v.isSome = w.isSome := by
  cases h with
  | bound => rfl
  | free => rfl
  | excused _ hfault => exact absurd hfault (hexcused _)

theorem NamesAlike.of_isSome_eq (a : Atom) {v w : Option Value} (h : v.isSome = w.isSome) :
    L.NamesAlike a a v w := by
  cases v with
  | none =>
    cases w with
    | none => exact .free rfl
    | some w => cases h
  | some v =>
    cases w with
    | none => cases h
    | some w => exact .bound

/-- Values that may stand in the same place. -/
inductive Like (L : Likeness) : Value → Value → Prop
  | kept {v : Value} (h : v.AllCells L.keeps) : Like L v v
  | pair {c d : Nat} {head head' tail tail' : Value} (hcell : L.made c d)
      (hhead : Like L head head') (htail : Like L tail tail') :
      Like L (.pair c head tail) (.pair d head' tail')
  | closure {c d : Nat} {params others : List String} {body body' : Expr} {env env' : Environment}
      {R : Atom → Atom → Prop} (hcell : L.made c d) (hbinders : L.binders params others)
      (halike : L.alike body body') (hbody : L.Matches (under params others R) body body')
      (hnames : ∀ a b, R a b → L.NamesAlike a b (env.get? a.name) (env'.get? b.name))
      (hvalues : ∀ a b v w, R a b → env.get? a.name = some v → env'.get? b.name = some w →
        Like L v w) :
      Like L (.closure c params body env) (.closure d others body' env')

/-- Two environments agree on atoms that correspond. -/
structure Agrees (L : Likeness) (R : Atom → Atom → Prop) (env env' : Environment) : Prop where
  names {a b : Atom} (h : R a b) : L.NamesAlike a b (env.get? a.name) (env'.get? b.name)
  values {a b : Atom} {v w : Value} (h : R a b) (hv : env.get? a.name = some v)
    (hw : env'.get? b.name = some w) : L.Like v w

/-- The cases in which values are alike, by what they are. -/
inductive LikeCases (L : Likeness) : Value → Value → Prop
  | plain {v : Value} (h : v.cell? = none) : LikeCases L v v
  | pair {c d : Nat} {head head' tail tail' : Value} (hcell : L.cells c d)
      (hhead : L.Like head head') (htail : L.Like tail tail') :
      LikeCases L (.pair c head tail) (.pair d head' tail')
  | closure {c d : Nat} {params others : List String} {body body' : Expr} {env env' : Environment}
      {R : Atom → Atom → Prop} (hcell : L.cells c d) (hbinders : L.binders params others)
      (halike : L.alike body body') (hbody : L.Matches (under params others R) body body')
      (hagrees : L.Agrees R env env') :
      LikeCases L (.closure c params body env) (.closure d others body' env')

theorem Like.plain {v : Value} (h : v.cell? = none) : L.Like v v :=
  .kept (Value.allCells_of_cell?_eq_none h)

theorem Like.toCases {v w : Value} (h : L.Like v w) : L.LikeCases v w := by
  cases h with
  | kept h =>
    cases v with
    | pair c head tail =>
      exact .pair (L.cells_of_keeps (h.cell rfl)) (.kept h.head) (.kept h.tail)
    | closure c params body env =>
      -- A closure that both runs have matches itself, all atoms corresponding to themselves.
      have hbody : L.Matches (under params params Eq) body body :=
        .refl body fun a _ => ⟨rfl, fun _ => rfl⟩
      refine .closure (L.cells_of_keeps (h.cell rfl)) (L.binders_refl params) (L.alike_refl body)
        hbody ⟨?_, ?_⟩
      · rintro a _ rfl
        exact .of_isSome_eq a rfl
      · rintro a _ v w rfl hv hw
        rw [hv] at hw
        cases hw
        exact .kept (h.captured hv)
    | _ => exact .plain rfl
  | pair hcell hhead htail => exact .pair (L.cells_of_made hcell) hhead htail
  | closure hcell hbinders halike hbody hnames hvalues =>
    exact .closure (L.cells_of_made hcell) hbinders halike hbody
      ⟨fun h => hnames _ _ h, fun h hv hw => hvalues _ _ _ _ h hv hw⟩

end Likeness

end MiniLisp
