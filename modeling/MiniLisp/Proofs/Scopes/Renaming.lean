import MiniLisp.Proofs.Scopes.FreeNames

/-!
Renaming a parameter. One parameter of one lambda gets another name, and so do exactly the atoms that mean
it (`ParamRenaming`, `Expr.RenamesParam`). Each atom then means the same binding as before: this is
`Expr.Recoded`, in which a name is followed out through the scopes that it stands in.
-/

namespace MiniLisp

/-- The name that replaces a name when `x` is renamed to `y`. -/
def renamed (x y name : String) : String :=
  if name = x then y else name

namespace Expr

/-! ## Renaming -/

mutual

/-- The expression with its free occurrences of `x` renamed to `y`, outside of quoted data. -/
def rename (x y : String) : Expr → Expr
  | .literal text => .literal (renamed x y text)
  | .identifier name => .identifier (renamed x y name)
  | .quote d => .quote d
  | .branch question answer => .branch (question.rename x y) (answer.rename x y)
  | .cond branches => .cond (renameBranches x y branches)
  | .lambda params body => .lambda params (if x ∈ params then body else body.rename x y)
  | .app func args => .app (func.rename x y) (renameAll x y args)
  | .empty => .empty

/-- The branches with their free occurrences of `x` renamed to `y`. -/
def renameBranches (x y : String) : List (Expr × Expr) → List (Expr × Expr)
  | [] => []
  | (question, answer) :: branches =>
    (question.rename x y, answer.rename x y) :: renameBranches x y branches

/-- The expressions with their free occurrences of `x` renamed to `y`. -/
def renameAll (x y : String) : List Expr → List Expr
  | [] => []
  | e :: es => e.rename x y :: renameAll x y es

end

/-- A lambda with parameter `y` stands around a free occurrence of `x` in the expression. -/
inductive Captures (x y : String) : Expr → Prop
  | here {params : List String} {body : Expr} (hx : x ∉ params) (hy : y ∈ params)
      (hfree : x ∈ body.freeNames) : Captures x y (.lambda params body)
  | body {params : List String} {body : Expr} (hx : x ∉ params) (h : Captures x y body) :
      Captures x y (.lambda params body)
  | looseQuestion {question answer : Expr} (h : Captures x y question) :
      Captures x y (.branch question answer)
  | looseAnswer {question answer : Expr} (h : Captures x y answer) :
      Captures x y (.branch question answer)
  | question {branches : List (Expr × Expr)} {b : Expr × Expr} (hb : b ∈ branches)
      (h : Captures x y b.1) : Captures x y (.cond branches)
  | answer {branches : List (Expr × Expr)} {b : Expr × Expr} (hb : b ∈ branches)
      (h : Captures x y b.2) : Captures x y (.cond branches)
  | head {func : Expr} {args : List Expr} (h : Captures x y func) : Captures x y (.app func args)
  | arg {func e : Expr} {args : List Expr} (he : e ∈ args) (h : Captures x y e) :
      Captures x y (.app func args)

end Expr

/-- A lambda, a parameter `x` of it, and a name `y` that the parameter may get instead: the parameters are
pairwise different, `y` is none of them and not free in the body, and no lambda in between captures it. -/
structure ParamRenaming where
  x : String
  y : String
  params : List String
  body : Expr
  nodup : params.Nodup
  param : x ∈ params
  new : y ∉ params
  unused : y ∉ body.freeNames
  uncaptured : ¬ body.Captures x y

namespace ParamRenaming

/-- The lambda as it is. -/
def before (r : ParamRenaming) : Expr :=
  .lambda r.params r.body

/-- The lambda with its parameter renamed, and with it the atoms that mean it. -/
def after (r : ParamRenaming) : Expr :=
  .lambda (r.params.map (renamed r.x r.y)) (r.body.rename r.x r.y)

end ParamRenaming

namespace Expr

/-- In one place of the first expression, outside of quoted data, the lambda has its parameter renamed;
nothing else of the second expression differs. -/
inductive RenamesParam (r : ParamRenaming) : Expr → Expr → Prop
  | here : RenamesParam r r.before r.after
  | body {params : List String} {body body' : Expr} (h : RenamesParam r body body') :
      RenamesParam r (.lambda params body) (.lambda params body')
  | looseQuestion {question question' answer : Expr} (h : RenamesParam r question question') :
      RenamesParam r (.branch question answer) (.branch question' answer)
  | looseAnswer {question answer answer' : Expr} (h : RenamesParam r answer answer') :
      RenamesParam r (.branch question answer) (.branch question answer')
  | question {before after : List (Expr × Expr)} {question question' answer : Expr}
      (h : RenamesParam r question question') :
      RenamesParam r (.cond (before ++ (question, answer) :: after))
        (.cond (before ++ (question', answer) :: after))
  | answer {before after : List (Expr × Expr)} {question answer answer' : Expr}
      (h : RenamesParam r answer answer') :
      RenamesParam r (.cond (before ++ (question, answer) :: after))
        (.cond (before ++ (question, answer') :: after))
  | head {func func' : Expr} {args : List Expr} (h : RenamesParam r func func') :
      RenamesParam r (.app func args) (.app func' args)
  | arg {func e e' : Expr} {before after : List Expr} (h : RenamesParam r e e') :
      RenamesParam r (.app func (before ++ e :: after)) (.app func (before ++ e' :: after))

end Expr

/-! ## Scopes -/

/-- The names that one frame binds, and whether `x` is renamed to `y` in it. -/
structure Scope where
  names : List String
  isMoved : Bool

namespace Scope

/-- What the scope calls a name after the renaming. -/
def rename (x y : String) (s : Scope) (name : String) : String :=
  if s.isMoved then renamed x y name else name

/-- A scope in which the parameter is renamed binds the parameters of its lambda. -/
def Fits (r : ParamRenaming) (s : Scope) : Prop :=
  s.isMoved = true → s.names = r.params

theorem Fits.new {r : ParamRenaming} {s : Scope} (h : s.Fits r) (hmoved : s.isMoved = true) :
    r.y ∉ s.names := by
  rw [h hmoved]
  exact r.new

/-- Before and after the renaming the two names mean the same binding of the scopes, innermost first, or
they are one name that none of the scopes binds. -/
inductive Means (x y : String) : List Scope → String → String → Prop
  | free (name : String) : Means x y [] name name
  | here {s : Scope} {scopes : List Scope} {name : String} (h : name ∈ s.names) :
      Means x y (s :: scopes) name (s.rename x y name)
  | outer {s : Scope} {scopes : List Scope} {name name' : String} (h : name ∉ s.names)
      (h' : name' ∉ s.names.map (s.rename x y)) (hrest : Means x y scopes name name') :
      Means x y (s :: scopes) name name'

variable {x y : String} {scopes : List Scope}

theorem rename_of_not_moved {s : Scope} (h : s.isMoved = false) (name : String) :
    s.rename x y name = name := by
  rw [rename, if_neg (by rw [h]; decide)]

theorem map_rename_of_not_moved {s : Scope} (h : s.isMoved = false) :
    s.names.map (s.rename x y) = s.names := by
  have hid : s.rename x y = id := funext fun name => rename_of_not_moved h name
  rw [hid, List.map_id]

/-- Scopes in which nothing is renamed. -/
abbrev Unmoved (scopes : List Scope) : Prop :=
  ∀ s ∈ scopes, s.isMoved = false

theorem Unmoved.means (h : Unmoved scopes) (name : String) : Means x y scopes name name := by
  induction scopes with
  | nil => exact .free name
  | cons s scopes ih =>
    obtain ⟨hs, hrest⟩ := List.forall_mem_cons.1 h
    by_cases hname : name ∈ s.names
    · have hhere : Means x y (s :: scopes) name (s.rename x y name) := .here hname
      rwa [rename_of_not_moved hs] at hhere
    · exact .outer hname (by rwa [map_rename_of_not_moved hs]) (ih hrest)

/-- One more scope in which nothing is renamed: it binds both names, as one, or neither of them. -/
theorem Means.under {names : List String} {name name' : String}
    (hbound : name ∈ names → name' = name) (hfree : name ∉ names → name' ∉ names)
    (h : name ∉ names → Means x y scopes name name') :
    Means x y (⟨names, false⟩ :: scopes) name name' := by
  by_cases hname : name ∈ names
  · rw [hbound hname]
    exact .here hname
  · refine .outer hname ?_ (h hname)
    rw [map_rename_of_not_moved rfl]
    exact hfree hname

end Scope

namespace Expr

open Scope

mutual

/-- In these scopes the second expression is the first after the renaming: the atoms of the two mean the
same bindings, and where a lambda has other parameters it is the lambda whose parameter is renamed. -/
inductive Recoded (r : ParamRenaming) : List Scope → Expr → Expr → Prop
  | literal {scopes : List Scope} {name name' : String} (h : Means r.x r.y scopes name name') :
      Recoded r scopes (.literal name) (.literal name')
  | identifier {scopes : List Scope} {name name' : String} (h : Means r.x r.y scopes name name') :
      Recoded r scopes (.identifier name) (.identifier name')
  | quote {scopes : List Scope} (d : Expr) : Recoded r scopes (.quote d) (.quote d)
  | branch {scopes : List Scope} {q q' a a' : Expr} (hq : Recoded r scopes q q')
      (ha : Recoded r scopes a a') : Recoded r scopes (.branch q a) (.branch q' a')
  | cond {scopes : List Scope} {branches others : List (Expr × Expr)}
      (h : RecodedBranches r scopes branches others) :
      Recoded r scopes (.cond branches) (.cond others)
  | lambda {scopes : List Scope} {body body' : Expr} (s : Scope)
      (hmoved : s.isMoved = true → s.names = r.params ∧ body = r.body)
      (h : Recoded r (s :: scopes) body body') :
      Recoded r scopes (.lambda s.names body) (.lambda (s.names.map (s.rename r.x r.y)) body')
  | app {scopes : List Scope} {func func' : Expr} {args others : List Expr}
      (hfunc : Recoded r scopes func func') (hargs : RecodedAll r scopes args others) :
      Recoded r scopes (.app func args) (.app func' others)
  | empty {scopes : List Scope} : Recoded r scopes .empty .empty

/-- The branches of a conditional before and after the renaming. -/
inductive RecodedBranches (r : ParamRenaming) :
    List Scope → List (Expr × Expr) → List (Expr × Expr) → Prop
  | nil {scopes : List Scope} : RecodedBranches r scopes [] []
  | cons {scopes : List Scope} {q q' a a' : Expr} {branches others : List (Expr × Expr)}
      (hq : Recoded r scopes q q') (ha : Recoded r scopes a a')
      (h : RecodedBranches r scopes branches others) :
      RecodedBranches r scopes ((q, a) :: branches) ((q', a') :: others)

/-- Several expressions before and after the renaming. -/
inductive RecodedAll (r : ParamRenaming) : List Scope → List Expr → List Expr → Prop
  | nil {scopes : List Scope} : RecodedAll r scopes [] []
  | cons {scopes : List Scope} {e e' : Expr} {es others : List Expr} (he : Recoded r scopes e e')
      (h : RecodedAll r scopes es others) : RecodedAll r scopes (e :: es) (e' :: others)

end

variable {r : ParamRenaming} {scopes : List Scope}

/-! ## From names to scopes -/

theorem Recoded.lambda_unmoved {params : List String} {body body' : Expr}
    (h : Recoded r (⟨params, false⟩ :: scopes) body body') :
    Recoded r scopes (.lambda params body) (.lambda params body') := by
  have hlambda := Recoded.lambda ⟨params, false⟩ (fun hmoved => by cases hmoved) h
  rwa [map_rename_of_not_moved rfl] at hlambda

mutual

/-- An expression whose free names all mean the same before and after is itself after the renaming. -/
theorem Recoded.refl : ∀ (e : Expr) {scopes : List Scope},
    (∀ name ∈ e.freeNames, Means r.x r.y scopes name name) → Recoded r scopes e e
  | .literal text, _, h => .literal (h text (by rw [freeNames]; exact List.mem_singleton_self _))
  | .identifier name, _, h =>
    .identifier (h name (by rw [freeNames]; exact List.mem_singleton_self _))
  | .quote d, _, _ => .quote d
  | .branch question answer, _, h => by
    rw [freeNames] at h
    exact .branch (Recoded.refl question fun name hname => h name (List.mem_append_left _ hname))
      (Recoded.refl answer fun name hname => h name (List.mem_append_right _ hname))
  | .cond branches, _, h => by
    rw [freeNames] at h
    exact .cond (RecodedBranches.refl branches h)
  | .lambda params body, scopes, h => by
    have hbody : Recoded r (⟨params, false⟩ :: scopes) body body := by
      refine Recoded.refl body fun name hname => .under (fun _ => rfl) id fun hparam => ?_
      exact h name (mem_freeNames_lambda.2 ⟨hname, hparam⟩)
    exact hbody.lambda_unmoved
  | .app func args, _, h => by
    rw [freeNames] at h
    exact .app (Recoded.refl func fun name hname => h name (List.mem_append_left _ hname))
      (RecodedAll.refl args fun name hname => h name (List.mem_append_right _ hname))
  | .empty, _, _ => .empty

theorem RecodedBranches.refl : ∀ (branches : List (Expr × Expr)) {scopes : List Scope},
    (∀ name ∈ branchFreeNames branches, Means r.x r.y scopes name name) →
      RecodedBranches r scopes branches branches
  | [], _, _ => .nil
  | (question, answer) :: branches, _, h => by
    simp only [branchFreeNames, List.mem_append] at h
    exact .cons (Recoded.refl question fun name hname => h name (.inl (.inl hname)))
      (Recoded.refl answer fun name hname => h name (.inl (.inr hname)))
      (RecodedBranches.refl branches fun name hname => h name (.inr hname))

theorem RecodedAll.refl : ∀ (es : List Expr) {scopes : List Scope},
    (∀ name ∈ freeNamesOf es, Means r.x r.y scopes name name) → RecodedAll r scopes es es
  | [], _, _ => .nil
  | e :: es, _, h => by
    simp only [freeNamesOf, List.mem_append] at h
    exact .cons (Recoded.refl e fun name hname => h name (.inl hname))
      (RecodedAll.refl es fun name hname => h name (.inr hname))

end

theorem renamed_of_ne {x y name : String} (h : name ≠ x) : renamed x y name = name :=
  if_neg h

mutual

/-- If every free name of an expression means after the renaming what it meant before, and is not captured,
then the renamed expression is the expression after the renaming. -/
theorem Recoded.rename : ∀ (e : Expr) {scopes : List Scope},
    (∀ name ∈ e.freeNames, Means r.x r.y scopes name (renamed r.x r.y name)) → ¬ e.Captures r.x r.y →
      Recoded r scopes e (e.rename r.x r.y)
  | .literal text, _, h, _ => by
    rw [Expr.rename]
    exact .literal (h text (by rw [freeNames]; exact List.mem_singleton_self _))
  | .identifier name, _, h, _ => by
    rw [Expr.rename]
    exact .identifier (h name (by rw [freeNames]; exact List.mem_singleton_self _))
  | .quote d, _, _, _ => by
    rw [Expr.rename]
    exact .quote d
  | .branch question answer, _, h, hc => by
    rw [freeNames] at h
    rw [Expr.rename]
    exact .branch
      (Recoded.rename question (fun name hname => h name (List.mem_append_left _ hname))
        fun hq => hc (.looseQuestion hq))
      (Recoded.rename answer (fun name hname => h name (List.mem_append_right _ hname))
        fun ha => hc (.looseAnswer ha))
  | .cond branches, _, h, hc => by
    rw [freeNames] at h
    rw [Expr.rename]
    exact .cond (RecodedBranches.rename branches h fun b hb =>
      ⟨fun hq => hc (.question hb hq), fun ha => hc (.answer hb ha)⟩)
  | .lambda params body, scopes, h, hc => by
    rw [Expr.rename]
    by_cases hx : r.x ∈ params
    · -- The lambda binds `x` itself, so nothing in it is renamed.
      rw [if_pos hx]
      refine Recoded.refl (.lambda params body) fun name hname => ?_
      have hne : name ≠ r.x := fun heq => (mem_freeNames_lambda.1 hname).2 (heq ▸ hx)
      have hmeans := h name hname
      rwa [renamed_of_ne hne] at hmeans
    · rw [if_neg hx]
      refine Recoded.lambda_unmoved (Recoded.rename body (fun name hname => ?_) fun hbody =>
        hc (.body hx hbody))
      refine .under (fun hparam => ?_) (fun hparam => ?_) fun hparam =>
        h name (mem_freeNames_lambda.2 ⟨hname, hparam⟩)
      · exact renamed_of_ne fun heq => hx (heq ▸ hparam)
      · by_cases heq : name = r.x
        · rw [heq, renamed, if_pos rfl]
          exact fun hy => hc (.here hx hy (heq ▸ hname))
        · rwa [renamed_of_ne heq]
  | .app func args, _, h, hc => by
    rw [freeNames] at h
    rw [Expr.rename]
    exact .app
      (Recoded.rename func (fun name hname => h name (List.mem_append_left _ hname))
        fun hf => hc (.head hf))
      (RecodedAll.rename args (fun name hname => h name (List.mem_append_right _ hname))
        fun e he ha => hc (.arg he ha))
  | .empty, _, _, _ => by
    rw [Expr.rename]
    exact .empty

theorem RecodedBranches.rename : ∀ (branches : List (Expr × Expr)) {scopes : List Scope},
    (∀ name ∈ branchFreeNames branches, Means r.x r.y scopes name (renamed r.x r.y name)) →
      (∀ b ∈ branches, ¬ Captures r.x r.y b.1 ∧ ¬ Captures r.x r.y b.2) →
        RecodedBranches r scopes branches (renameBranches r.x r.y branches)
  | [], _, _, _ => by
    rw [renameBranches]
    exact .nil
  | (question, answer) :: branches, _, h, hc => by
    simp only [branchFreeNames, List.mem_append] at h
    obtain ⟨hb, hrest⟩ := List.forall_mem_cons.1 hc
    rw [renameBranches]
    exact .cons (Recoded.rename question (fun name hname => h name (.inl (.inl hname))) hb.1)
      (Recoded.rename answer (fun name hname => h name (.inl (.inr hname))) hb.2)
      (RecodedBranches.rename branches (fun name hname => h name (.inr hname)) hrest)

theorem RecodedAll.rename : ∀ (es : List Expr) {scopes : List Scope},
    (∀ name ∈ freeNamesOf es, Means r.x r.y scopes name (renamed r.x r.y name)) →
      (∀ e ∈ es, ¬ Captures r.x r.y e) → RecodedAll r scopes es (renameAll r.x r.y es)
  | [], _, _, _ => by
    rw [renameAll]
    exact .nil
  | e :: es, _, h, hc => by
    simp only [freeNamesOf, List.mem_append] at h
    obtain ⟨he, hrest⟩ := List.forall_mem_cons.1 hc
    rw [renameAll]
    exact .cons (Recoded.rename e (fun name hname => h name (.inl hname)) he)
      (RecodedAll.rename es (fun name hname => h name (.inr hname)) hrest)

end

/-! ## One renamed parameter -/

theorem Recoded.of_unmoved (hscopes : Unmoved scopes) (e : Expr) : Recoded r scopes e e :=
  .refl e fun name _ => hscopes.means name

theorem RecodedBranches.splice {before after : List (Expr × Expr)} {b b' : Expr × Expr}
    (hscopes : Unmoved scopes) (hq : Recoded r scopes b.1 b'.1) (ha : Recoded r scopes b.2 b'.2) :
    RecodedBranches r scopes (before ++ b :: after) (before ++ b' :: after) := by
  induction before with
  | nil => exact .cons hq ha (.refl after fun name _ => hscopes.means name)
  | cons c before ih =>
    exact .cons (.of_unmoved hscopes c.1) (.of_unmoved hscopes c.2) ih

theorem RecodedAll.splice {before after : List Expr} {e e' : Expr} (hscopes : Unmoved scopes)
    (he : Recoded r scopes e e') :
    RecodedAll r scopes (before ++ e :: after) (before ++ e' :: after) := by
  induction before with
  | nil => exact .cons he (.refl after fun name _ => hscopes.means name)
  | cons c before ih => exact .cons (.of_unmoved hscopes c) ih

/-- The lambda whose parameter is renamed, in scopes in which nothing is. -/
theorem Recoded.param (hscopes : Unmoved scopes) : Recoded r scopes r.before r.after := by
  refine .lambda ⟨r.params, true⟩ (fun _ => ⟨rfl, rfl⟩)
    (.rename r.body (fun name hname => ?_) r.uncaptured)
  by_cases hparam : name ∈ r.params
  · exact .here hparam
  · have hne : name ≠ r.x := fun heq => hparam (heq ▸ r.param)
    have hney : name ≠ r.y := fun heq => r.unused (heq ▸ hname)
    rw [renamed_of_ne hne]
    refine .outer hparam (fun hmem => ?_) (hscopes.means name)
    -- The renamed parameters are the others, and `y`.
    obtain ⟨param, hmem, heq⟩ := List.mem_map.1 hmem
    have hrenamed : renamed r.x r.y param = name := heq
    unfold renamed at hrenamed
    split at hrenamed
    · exact hney hrenamed.symm
    · exact hparam (hrenamed ▸ hmem)

theorem RenamesParam.recoded {e e' : Expr} (h : RenamesParam r e e') {scopes : List Scope}
    (hscopes : Unmoved scopes) : Recoded r scopes e e' := by
  induction h generalizing scopes with
  | here => exact .param hscopes
  | @body params _ _ _ ih =>
    have hinner : Unmoved (⟨params, false⟩ :: scopes) := List.forall_mem_cons.2 ⟨rfl, hscopes⟩
    exact .lambda_unmoved (ih hinner)
  | looseQuestion _ ih => exact .branch (ih hscopes) (.of_unmoved hscopes _)
  | looseAnswer _ ih => exact .branch (.of_unmoved hscopes _) (ih hscopes)
  | question _ ih => exact .cond (.splice hscopes (ih hscopes) (.of_unmoved hscopes _))
  | answer _ ih => exact .cond (.splice hscopes (.of_unmoved hscopes _) (ih hscopes))
  | head _ ih => exact .app (ih hscopes) (.refl _ fun name _ => hscopes.means name)
  | arg _ ih => exact .app (.of_unmoved hscopes _) (.splice hscopes (ih hscopes))

end Expr

end MiniLisp
