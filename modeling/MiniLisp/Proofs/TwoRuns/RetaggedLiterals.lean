import MiniLisp.Proofs.Scopes.RelatedFrames
import MiniLisp.Proofs.TwoRuns.LexicalScope

/-!
Literals that name parameters. A literal is looked up like an identifier first, and a parameter around it
is always bound when it is; so it may be an identifier as well (`Expr.Retagged`). An expression comes to
the same after some such literals have been made identifiers, up to that change in the bodies of
closures (`bound_literals_are_identifiers`).
-/

namespace MiniLisp

/-! ## Expressions -/

namespace Expr

mutual

/-- The second expression is the first with some of its literals made identifiers, outside of quoted data
and of bare branches. Each of them stands in the body of a lambda that has its text as a parameter, or
its text is one of the bound names. -/
inductive Retagged : List String → Expr → Expr → Prop
  | literal {bound : List String} (text : String) : Retagged bound (.literal text) (.literal text)
  | retagged {bound : List String} {name : String} (h : name ∈ bound) :
      Retagged bound (.literal name) (.identifier name)
  | identifier {bound : List String} (name : String) :
      Retagged bound (.identifier name) (.identifier name)
  | quote {bound : List String} (d : Expr) : Retagged bound (.quote d) (.quote d)
  | branch {bound : List String} (question answer : Expr) :
      Retagged bound (.branch question answer) (.branch question answer)
  | cond {bound : List String} {branches others : List (Expr × Expr)}
      (h : RetaggedBranches bound branches others) : Retagged bound (.cond branches) (.cond others)
  | lambda {bound params : List String} {body body' : Expr}
      (h : Retagged (params ++ bound) body body') :
      Retagged bound (.lambda params body) (.lambda params body')
  | app {bound : List String} {func func' : Expr} {args others : List Expr}
      (hfunc : Retagged bound func func') (hargs : RetaggedAll bound args others) :
      Retagged bound (.app func args) (.app func' others)
  | empty {bound : List String} : Retagged bound .empty .empty

/-- The branches of a conditional, with some of their literals made identifiers. -/
inductive RetaggedBranches : List String → List (Expr × Expr) → List (Expr × Expr) → Prop
  | nil {bound : List String} : RetaggedBranches bound [] []
  | cons {bound : List String} {q q' a a' : Expr} {branches others : List (Expr × Expr)}
      (hq : Retagged bound q q') (ha : Retagged bound a a')
      (h : RetaggedBranches bound branches others) :
      RetaggedBranches bound ((q, a) :: branches) ((q', a') :: others)

/-- Several expressions, with some of their literals made identifiers. -/
inductive RetaggedAll : List String → List Expr → List Expr → Prop
  | nil {bound : List String} : RetaggedAll bound [] []
  | cons {bound : List String} {e e' : Expr} {es others : List Expr} (he : Retagged bound e e')
      (h : RetaggedAll bound es others) : RetaggedAll bound (e :: es) (e' :: others)

end

mutual

theorem Retagged.refl : ∀ (e : Expr) {bound : List String}, Retagged bound e e
  | .literal text, _ => .literal text
  | .identifier name, _ => .identifier name
  | .quote d, _ => .quote d
  | .branch question answer, _ => .branch question answer
  | .cond branches, _ => .cond (RetaggedBranches.refl branches)
  | .lambda _ body, _ => .lambda (Retagged.refl body)
  | .app func args, _ => .app (Retagged.refl func) (RetaggedAll.refl args)
  | .empty, _ => .empty

theorem RetaggedBranches.refl :
    ∀ (branches : List (Expr × Expr)) {bound : List String}, RetaggedBranches bound branches branches
  | [], _ => .nil
  | (question, answer) :: branches, _ =>
    .cons (Retagged.refl question) (Retagged.refl answer) (RetaggedBranches.refl branches)

theorem RetaggedAll.refl : ∀ (es : List Expr) {bound : List String}, RetaggedAll bound es es
  | [], _ => .nil
  | e :: es, _ => .cons (Retagged.refl e) (RetaggedAll.refl es)

end

theorem RetaggedBranches.forall₂ {bound : List String} : ∀ {branches others : List (Expr × Expr)},
    RetaggedBranches bound branches others →
      List.Forall₂ (fun b b' => Retagged bound b.1 b'.1 ∧ Retagged bound b.2 b'.2) branches others
  | _, _, .nil => .nil
  | _, _, .cons hq ha h => .cons ⟨hq, ha⟩ h.forall₂

theorem RetaggedAll.forall₂ {bound : List String} : ∀ {es others : List Expr},
    RetaggedAll bound es others → List.Forall₂ (Retagged bound) es others
  | _, _, .nil => .nil
  | _, _, .cons he h => .cons he h.forall₂

/-! ## Texts -/

/-- Expressions with one source text, of which a bare branch is only like itself. -/
structure SameSource (e e' : Expr) : Prop where
  source : e.source = e'.source
  sourceFrames : e.sourceFrames = e'.sourceFrames
  debugFrames : e.debugFrames = e'.debugFrames
  branch {question answer : Expr} (h : e = .branch question answer) : e' = e

theorem SameSource.refl (e : Expr) : SameSource e e :=
  ⟨rfl, rfl, rfl, fun _ => rfl⟩

mutual

/-- A literal and an identifier have the same source text. -/
theorem Retagged.sameSource : ∀ {bound : List String} {e e' : Expr}, Retagged bound e e' →
    SameSource e e'
  | _, _, _, .literal _ => .refl _
  | _, _, _, .retagged _ => ⟨by simp only [source], by simp only [sourceFrames],
      by simp only [debugFrames], fun h => nomatch h⟩
  | _, _, _, .identifier _ => .refl _
  | _, _, _, .quote _ => .refl _
  | _, _, _, .branch _ _ => .refl _
  | _, _, _, .cond h => by
    obtain ⟨hsource, hsourceFrames, hdebugFrames⟩ := h.sameSources
    refine ⟨?_, ?_, ?_, fun h => nomatch h⟩
    · simp only [source, hsource]
    · simp only [sourceFrames, hsourceFrames]
    · simp only [debugFrames, hdebugFrames]
  | _, _, _, .lambda h => by
    obtain ⟨hsource, hsourceFrames, hdebugFrames, -⟩ := h.sameSource
    refine ⟨?_, ?_, ?_, fun h => nomatch h⟩
    · simp only [source, hsource]
    · simp only [sourceFrames, hsourceFrames]
    · simp only [debugFrames, hdebugFrames]
  | _, _, _, .app hfunc hargs => by
    obtain ⟨hsource, hsourceFrames, hdebugFrames, -⟩ := hfunc.sameSource
    obtain ⟨hsources, hsourceFramesOf, hdebugFramesOf⟩ := hargs.sameSources
    refine ⟨?_, ?_, ?_, fun h => nomatch h⟩
    · simp only [source, hsource, hsources]
    · simp only [sourceFrames, hsourceFrames, hsourceFramesOf]
    · simp only [debugFrames, hdebugFrames, hdebugFramesOf]
  | _, _, _, .empty => .refl _

theorem RetaggedBranches.sameSources : ∀ {bound : List String} {branches others : List (Expr × Expr)},
    RetaggedBranches bound branches others →
      branchSources branches = branchSources others ∧
        branchSourceFrames branches = branchSourceFrames others ∧
        branchDebugFrames branches = branchDebugFrames others
  | _, _, _, .nil => ⟨rfl, rfl, rfl⟩
  | _, _, _, .cons hq ha h => by
    obtain ⟨hqSource, hqSourceFrames, hqDebugFrames, -⟩ := hq.sameSource
    obtain ⟨haSource, haSourceFrames, haDebugFrames, -⟩ := ha.sameSource
    obtain ⟨hsources, hsourceFrames, hdebugFrames⟩ := h.sameSources
    refine ⟨?_, ?_, ?_⟩
    · simp only [branchSources, hqSource, haSource, hsources]
    · simp only [branchSourceFrames, hqSourceFrames, haSourceFrames, hsourceFrames]
    · simp only [branchDebugFrames, hqDebugFrames, haDebugFrames, hdebugFrames]

theorem RetaggedAll.sameSources : ∀ {bound : List String} {es others : List Expr},
    RetaggedAll bound es others →
      sources es = sources others ∧ sourceFramesOf es = sourceFramesOf others ∧
        debugFramesOf es = debugFramesOf others
  | _, _, _, .nil => ⟨rfl, rfl, rfl⟩
  | _, _, _, .cons he h => by
    obtain ⟨hsource, hsourceFrames, hdebugFrames, -⟩ := he.sameSource
    obtain ⟨hsources, hsourceFramesOf, hdebugFramesOf⟩ := h.sameSources
    refine ⟨?_, ?_, ?_⟩
    · simp only [Expr.sources, hsource, hsources]
    · simp only [sourceFramesOf, hsourceFrames, hsourceFramesOf]
    · simp only [debugFramesOf, hdebugFrames, hdebugFramesOf]

end

end Expr

/-! ## Values -/

/-- Values that are equal up to literals made identifiers in the bodies of closures. Each such literal names
a parameter of the closure or of a lambda around it, which the captured environment binds. -/
inductive Value.Retagged : Value → Value → Prop
  | plain {v : Value} (h : v.cell? = none) : Value.Retagged v v
  | pair {cell : Nat} {head head' tail tail' : Value} (hhead : Value.Retagged head head')
      (htail : Value.Retagged tail tail') :
      Value.Retagged (.pair cell head tail) (.pair cell head' tail')
  | closure {cell : Nat} {params : List String} {body body' : Expr} {env env' : Environment}
      {bound : List String} (hbound : ∀ name ∈ bound, ∃ v, Environment.get? env name = some v)
      (hcode : Expr.Retagged bound (.lambda params body) (.lambda params body'))
      (henv : Environment.Related Value.Retagged env env') :
      Value.Retagged (.closure cell params body env) (.closure cell params body' env')

/-- Environments that bind the same names to such values. -/
abbrev Environment.Retagged : Environment → Environment → Prop :=
  Environment.Related Value.Retagged

theorem Value.Retagged.refl (v : Value) : Value.Retagged v v := by
  induction v with
  | pair cell head tail ihhead ihtail => exact .pair ihhead ihtail
  | closure cell params body env ih =>
    have hbound : ∀ name ∈ ([] : List String), ∃ v, env.get? name = some v := by simp
    exact .closure hbound (.refl _) (.refl ih)
  | _ => exact .plain rfl

theorem Environment.Retagged.refl (env : Environment) : Environment.Retagged env env :=
  Environment.Related.refl fun _ _ binding _ => Value.Retagged.refl binding.2

/-- Runs from one counter of cells, whose code differs in the tags of atoms. -/
def sameButTags : Likeness :=
  { sameExpression 0 with
    alike := Expr.SameSource
    alike_refl := Expr.SameSource.refl
    alike_sourceFrames := fun h => h.sourceFrames
    alike_debugFrames := fun h => h.debugFrames
    alike_source := fun _ h => h.source
    alike_branch := fun _ h => by rw [h.branch rfl] }

theorem Value.Retagged.resembles {v w : Value} (h : Value.Retagged v w) :
    sameButTags.Resembles v w := by
  induction v generalizing w with
  | pair cell head tail ihhead ihtail =>
    cases h with
    | plain hplain => exact .plain hplain
    | pair hhead htail => exact .pair rfl (ihhead hhead) (ihtail htail)
  | closure cell params body env _ =>
    cases h with
    | plain hplain => exact .plain hplain
    | closure _ hcode =>
      cases hcode with
      | lambda hbody => exact .closure rfl rfl hbody.sameSource
  | _ =>
    cases h with
    | plain hplain => exact .plain hplain

/-- Values without closures that are equal up to such literals are the same. -/
theorem Value.Retagged.eq_of_no_closures {v w : Value} (h : Value.Retagged v w)
    (hclosures : v.AllClosures fun _ _ _ _ => False) : v = w := by
  induction v generalizing w with
  | pair cell head tail ihhead ihtail =>
    cases h with
    | plain => rfl
    | pair hhead htail =>
      obtain ⟨hh, ht⟩ := Value.allClosures_pair.1 hclosures
      rw [ihhead hhead hh, ihtail htail ht]
  | closure => exact (Value.allClosures_closure.1 hclosures).1.elim
  | _ =>
    cases h with
    | plain => rfl

/-! ## Runs -/

/-- An expression and its counterpart with literals made identifiers, in environments of which the first
binds the names of these literals. -/
def RetaggedCode (e : Expr) (env : Environment) (e' : Expr) (env' : Environment) : Prop :=
  ∃ bound, (∀ name ∈ bound, ∃ v, env.get? name = some v) ∧ e.Retagged bound e' ∧
    Environment.Retagged env env'

/-- The two computations come to values that are equal up to retagged literals, or to faults with one
message. -/
abbrev RetaggedRuns (first second : EvalM Value) : Prop :=
  (sameButTags.couplingTo sameButTags.sameKinds).Runs Value.Retagged first second

theorem Environment.Retagged.runs_bound {env env' : Environment} (henv : Environment.Retagged env env')
    {a b : Atom} (hname : a.name = b.name) (hbound : ∃ v, env.get? a.name = some v) :
    RetaggedRuns (liftM (env.valueOf a)) (liftM (env'.valueOf b)) := by
  have hget := henv.get? a.name
  obtain ⟨v, hv⟩ := hbound
  rw [hv] at hget
  generalize hw : env'.get? a.name = found at hget
  cases hget with
  | some hvw =>
    rw [hname] at hw
    rw [valueOf_of_bound hv, valueOf_of_bound hw]
    exact .pure hvw

theorem Environment.Retagged.runs_atom {env env' : Environment} (henv : Environment.Retagged env env')
    (a : Atom) : RetaggedRuns (liftM (env.valueOf a)) (liftM (env'.valueOf a)) := by
  cases hv : env.get? a.name with
  | some v => exact henv.runs_bound rfl ⟨v, hv⟩
  | none =>
    have hget := henv.get? a.name
    rw [hv] at hget
    generalize hw : env'.get? a.name = found at hget
    cases hget with
    | none =>
      rw [valueOf_of_unbound hv, valueOf_of_unbound hw]
      cases Environment.valueOf [] a with
      | ok v => exact .pure (.refl v)
      | error fault => exact .throw (.refl _ fault)

theorem RetaggedCode.parts {e e' : Expr} {env env' : Environment} (h : RetaggedCode e env e' env') :
    sameButTags.Parts sameButTags.sameKinds Value.Retagged RetaggedCode env env' e e' := by
  obtain ⟨bound, hbound, hcode, henv⟩ := h
  have hsource := hcode.sameSource
  cases hcode with
  | literal text => exact .atom rfl rfl (henv.runs_atom (.literal text))
  | @retagged _ name hname =>
    -- Both environments bind the name, so the first run does not try what else the literal could mean.
    exact .atom (a := .literal name) (b := .identifier name) rfl rfl
      (henv.runs_bound rfl (hbound name hname))
  | identifier name => exact .atom rfl rfl (henv.runs_atom (.identifier name))
  | quote => exact .quote
  | branch => exact .branch hsource
  | cond h =>
    exact .cond hsource (h.forall₂.imp fun b b' hb =>
      ⟨⟨bound, hbound, hb.1, henv⟩, bound, hbound, hb.2, henv⟩)
  | lambda h =>
    refine .lambda ?_
    rintro c _ ⟨rfl, -⟩
    exact .closure hbound (.lambda h) henv
  | app hfunc hargs =>
    exact .app ⟨bound, hbound, hfunc, henv⟩
      (hargs.forall₂.imp fun a a' ha => ⟨bound, hbound, ha, henv⟩)
  | empty => exact .empty

/-- In the scope of a call the parameters are bound, and what is bound around it. -/
theorem Environment.get?_extend_zip_isSome {env : Environment} {params bound : List String}
    {args : List Value} (count : args.length = params.length)
    (hbound : ∀ name ∈ bound, ∃ v, env.get? name = some v) :
    ∀ name ∈ params ++ bound, ∃ v, (env.extend (params.zip args)).get? name = some v := by
  intro name hname
  rw [get?_extend_zip env count]
  cases hslot : slot params name with
  | some i =>
    have hi : i < args.reverse.length := by
      rw [List.length_reverse, count]
      exact slot_lt hslot
    exact ⟨_, List.getElem?_eq_getElem hi⟩
  | none => exact hbound name ((List.mem_append.1 hname).resolve_left (slot_eq_none_iff.1 hslot))

/-- Values that are equal up to retagged literals, and code with such literals, are handed on by each
step. -/
def retaggedSideBySide : SideBySide where
  like := sameButTags
  endings := sameButTags.sameKinds
  values := Value.Retagged
  code := RetaggedCode
  resembles h := h.resembles
  plain := .plain
  pair := by
    rintro c _ _ _ _ _ ⟨rfl, -⟩ hhead htail
    exact .pair hhead htail
  tail h := by
    cases h with
    | plain hplain => cases hplain
    | pair _ htail => exact htail
  call h hargs count _ := by
    cases h with
    | plain hplain => cases hplain
    | closure hbound hcode henv =>
      cases hcode with
      | lambda hbody =>
        exact ⟨_, Environment.get?_extend_zip_isSome count hbound, hbody, henv.extend _ hargs⟩
  parts := RetaggedCode.parts

/-! ## Outcomes -/

/-- Values that are equal up to literals made identifiers in closures: of one kind, with the same texts, and
if there are no closures in them equal to each other. -/
structure EqualUpToTags (v w : Value) : Prop where
  retagged : Value.Retagged v w
  kind : v.kind = w.kind
  source : v.source = w.source
  debugForm : v.debugForm = w.debugForm
  equal : (∀ cell params body env, ¬ v.Reaches (.closure cell params body env)) →
    v.isEqual w = true

/-- Outcomes with such values, or with faults of one kind with one message. -/
inductive SameUpToTags : Outcome Value → Outcome Value → Prop
  | value {v w : Value} {m : Nat} (h : EqualUpToTags v w) : SameUpToTags (.ok v m) (.ok w m)
  | fault {f g : Fault} {m : Nat} (kind : f.kind = g.kind) (message : f.message = g.message) :
      SameUpToTags (.error f m) (.error g m)

theorem Value.Retagged.equalUpToTags {v w : Value} (h : Value.Retagged v w) : EqualUpToTags v w where
  retagged := h
  kind := h.resembles.kind
  source := h.resembles.source.1.eq trivial
  debugForm := h.resembles.debugForm.eq trivial
  equal hclosures := by
    rw [← h.eq_of_no_closures hclosures]
    exact v.isEqual_refl

theorem Expr.Retagged.outcomes {e e' : Expr} (h : Expr.Retagged [] e e') (env : Environment)
    (frames next : Nat) :
    SameUpToTags (eval frames e env next) (eval frames e' env next) ∧
      (Finished (eval frames e env next) ↔ Finished (eval frames e' env next)) := by
  have hcode : retaggedSideBySide.code e env e' env := ⟨[], by simp, h, .refl env⟩
  have hruns := retaggedSideBySide.runs_eval frames hcode next next ⟨rfl, Nat.zero_le next⟩
  generalize eval frames e env next = o at hruns ⊢
  generalize eval frames e' env next = o' at hruns ⊢
  cases hruns with
  | ok hvalue hcounters =>
    obtain ⟨rfl, -⟩ := hcounters
    exact ⟨.value hvalue.equalUpToTags, Iff.rfl⟩
  | error hfaults hcounters =>
    obtain ⟨rfl, -⟩ := hcounters
    exact ⟨.fault hfaults.kind (hfaults.message trivial), not_congr hfaults.outOfFrames⟩
  | excused hfault => exact hfault.elim

/-- Literals that stand in the scope of a parameter of their name may be identifiers: the expression comes
to what it came to before, up to that change in the bodies of closures, within any number of frames and
without a limit. -/
theorem bound_literals_are_identifiers {e e' : Expr} (h : Expr.Retagged [] e e') (env : Environment)
    (next : Nat) :
    (∀ frames, SameUpToTags (eval frames e env next) (eval frames e' env next)) ∧
      ((∃ o, EndsWith e env next o) ↔ ∃ o, EndsWith e' env next o) ∧
      ∀ o o', EndsWith e env next o → EndsWith e' env next o' → SameUpToTags o o' := by
  refine ⟨fun frames => (h.outcomes env frames next).1, ⟨?_, ?_⟩, fun o o' ho ho' => ?_⟩
  · rintro ⟨o, ho⟩
    exact ho.transfer fun frames => (h.outcomes env frames next).2.1
  · rintro ⟨o, ho⟩
    exact ho.transfer fun frames => (h.outcomes env frames next).2.2
  · exact ho.related ho' fun frames => (h.outcomes env frames next).1

/-- A parameter spelled like an integer, and a closure that leaves its scope: the parameter is looked up in the
frames as either of the two, and the closure keeps the identifier in its body. -/
theorem identifiers_in_an_escaping_closure :
    let body (x : Expr) := Expr.app (.literal "cons") [x, .literal "z"]
    let made (x : Expr) := Expr.app (.lambda ["1"] (.lambda ["z"] (body x))) [.quote (.literal "x")]
    Expr.Retagged [] (made (.literal "1")) (made (.identifier "1")) ∧
      eval 9 (made (.literal "1")) [] 0 =
        .ok (.closure 1 ["z"] (body (.literal "1")) [[("1", .symbol "x")]]) 2 ∧
      eval 9 (made (.identifier "1")) [] 0 =
        .ok (.closure 1 ["z"] (body (.identifier "1")) [[("1", .symbol "x")]]) 2 ∧
      SameUpToTags (eval 9 (made (.literal "1")) [] 0) (eval 9 (made (.identifier "1")) [] 0) := by
  intro body made
  have h : Expr.Retagged [] (made (.literal "1")) (made (.identifier "1")) :=
    .app (.lambda (.lambda (.app (.literal "cons")
      (.cons (.retagged (by simp)) (.cons (.literal "z") .nil))))) (.cons (.quote _) .nil)
  exact ⟨h, rfl, rfl, (bound_literals_are_identifiers h [] 0).1 9⟩

end MiniLisp
