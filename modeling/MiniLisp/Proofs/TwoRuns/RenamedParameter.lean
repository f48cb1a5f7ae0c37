import MiniLisp.Proofs.Scopes.Renaming
import MiniLisp.Proofs.TwoRuns.LexicalScope

/-!
The names of parameters do not matter. After a parameter is renamed an expression comes to the same, up to
that renaming in the closures of what it comes to and in the frames that these have captured
(`parameter_names_do_not_matter`).
-/

namespace MiniLisp

/-! ## Values -/

mutual

/-- Values that are equal up to the renaming inside closures. -/
inductive Value.Renamed (r : ParamRenaming) : Value → Value → Prop
  | plain {v : Value} (h : v.cell? = none) : Value.Renamed r v v
  | pair {cell : Nat} {head head' tail tail' : Value} (hhead : Value.Renamed r head head')
      (htail : Value.Renamed r tail tail') :
      Value.Renamed r (.pair cell head tail) (.pair cell head' tail')
  | closure {cell : Nat} {params params' : List String} {body body' : Expr} {env env' : Environment}
      {scopes : List Scope}
      (hcode : Expr.Recoded r scopes (.lambda params body) (.lambda params' body'))
      (henv : Environment.Renamed r scopes env env') :
      Value.Renamed r (.closure cell params body env) (.closure cell params' body' env')

/-- Environments whose frames bind the names of these scopes, before and after the renaming, to values that
are equal up to it. -/
inductive Environment.Renamed (r : ParamRenaming) : List Scope → Environment → Environment → Prop
  | nil : Environment.Renamed r [] [] []
  | cons {s : Scope} {scopes : List Scope} {frame frame' : Frame} {env env' : Environment}
      (hbinds : ∀ name ∈ s.names, name ∈ frame.names) (hfits : s.Fits r)
      (hframe : Frame.Renamed r s frame frame') (henv : Environment.Renamed r scopes env env') :
      Environment.Renamed r (s :: scopes) (frame :: env) (frame' :: env')

/-- Frames that bind names of one scope, before and after the renaming. -/
inductive Frame.Renamed (r : ParamRenaming) : Scope → Frame → Frame → Prop
  | nil {s : Scope} : Frame.Renamed r s [] []
  | cons {s : Scope} {name : String} {v v' : Value} {rest rest' : Frame} (hname : name ∈ s.names)
      (hvalue : Value.Renamed r v v') (hrest : Frame.Renamed r s rest rest') :
      Frame.Renamed r s ((name, v) :: rest) ((s.rename r.x r.y name, v') :: rest')

end

variable {r : ParamRenaming}

/-! ## Lookups -/

theorem Scope.rename_inj {s : Scope} (hfits : s.Fits r) {name other : String}
    (hname : name ∈ s.names) (hother : other ∈ s.names) :
    s.rename r.x r.y name = s.rename r.x r.y other ↔ name = other := by
  unfold Scope.rename
  by_cases hmoved : s.isMoved = true
  · have hy := hfits.new hmoved
    have hnamey : name ≠ r.y := fun heq => hy (heq ▸ hname)
    have hothery : other ≠ r.y := fun heq => hy (heq ▸ hother)
    rw [if_pos hmoved, if_pos hmoved]
    grind [renamed]
  · rw [if_neg hmoved, if_neg hmoved]

theorem Frame.Renamed.names {s : Scope} : ∀ {frame frame' : Frame}, Frame.Renamed r s frame frame' →
    frame'.names = frame.names.map (s.rename r.x r.y) ∧ ∀ name ∈ frame.names, name ∈ s.names
  | _, _, .nil => ⟨rfl, fun _ h => nomatch h⟩
  | _, _, .cons hname _ hrest => by
    obtain ⟨hnames, hmem⟩ := hrest.names
    exact ⟨congrArg (_ :: ·) hnames, List.forall_mem_cons.2 ⟨hname, hmem⟩⟩

theorem Frame.Renamed.get? {s : Scope} (hfits : s.Fits r) : ∀ {frame frame' : Frame},
    Frame.Renamed r s frame frame' → ∀ name ∈ s.names,
      Option.Rel (Value.Renamed r) (frame.get? name) (frame'.get? (s.rename r.x r.y name))
  | _, _, .nil, _, _ => .none
  | (bound, _) :: _, _ :: _, .cons hbound hvalue hrest, name, hname => by
    have hinj := Scope.rename_inj hfits hname hbound
    rw [Frame.get?_cons, Frame.get?_cons]
    by_cases heq : name = bound
    · rw [if_pos heq, if_pos (hinj.2 heq)]
      exact .some hvalue
    · rw [if_neg heq, if_neg (mt hinj.1 heq)]
      exact hrest.get? hfits name hname

/-- Two names that mean the same are bound to values that are equal up to the renaming, or they are one name
that neither environment binds. -/
theorem Environment.Renamed.get? {scopes : List Scope} {env env' : Environment}
    (h : Environment.Renamed r scopes env env') {name name' : String}
    (hmeans : Scope.Means r.x r.y scopes name name') :
    (∃ v w, env.get? name = some v ∧ env'.get? name' = some w ∧ Value.Renamed r v w) ∨
      env.get? name = none ∧ env'.get? name' = none ∧ name = name' := by
  induction hmeans generalizing env env' with
  | free name =>
    cases h
    exact .inr ⟨rfl, rfl, rfl⟩
  | here hname =>
    cases h with
    | @cons s scopes frame frame' env env' hbinds hfits hframe henv =>
      have hfound := hframe.get? hfits _ hname
      have hsome := mt Frame.get?_eq_none_iff.1 (not_not_intro (hbinds _ hname))
      rw [Environment.get?_cons, Environment.get?_cons]
      generalize frame.get? _ = found at hfound hsome ⊢
      generalize frame'.get? _ = found' at hfound ⊢
      cases hfound with
      | none => exact absurd rfl hsome
      | some hvalue => exact .inl ⟨_, _, rfl, rfl, hvalue⟩
  | outer hname hname' hrest ih =>
    cases h with
    | @cons s scopes frame frame' env env' hbinds hfits hframe henv =>
      -- Neither frame binds its name, so both names are looked up farther out.
      obtain ⟨hnames, hmem⟩ := hframe.names
      have hnone := Frame.get?_eq_none_iff.2 fun h => hname (hmem _ h)
      have hnone' : frame'.get? _ = none := Frame.get?_eq_none_iff.2 fun h => hname' <| by
        rw [hnames] at h
        obtain ⟨bound, hbound, heq⟩ := List.mem_map.1 h
        exact List.mem_map.2 ⟨bound, hmem bound hbound, heq⟩
      rw [Environment.get?_cons, Environment.get?_cons, hnone, hnone']
      exact ih henv

/-! ## Scopes of calls -/

theorem Frame.Renamed.insert {s : Scope} (hfits : s.Fits r) {name : String} (hname : name ∈ s.names)
    {v w : Value} (hvalue : Value.Renamed r v w) : ∀ {frame frame' : Frame},
    Frame.Renamed r s frame frame' →
      Frame.Renamed r s (frame.insert name v) (frame'.insert (s.rename r.x r.y name) w)
  | _, _, .nil => .cons hname hvalue .nil
  | (bound, _) :: _, _ :: _, .cons hbound hfirst hrest => by
    have hinj := Scope.rename_inj hfits hbound hname
    rw [Frame.insert, Frame.insert]
    by_cases heq : bound = name
    · rw [if_pos heq, if_pos (hinj.2 heq)]
      exact .cons hname hvalue hrest
    · rw [if_neg heq, if_neg (mt hinj.1 heq)]
      exact .cons hbound hfirst (hrest.insert hfits hname hvalue)

theorem Frame.Renamed.ofBindings {s : Scope} (hfits : s.Fits r) {args args' : List Value}
    (hargs : List.Forall₂ (Value.Renamed r) args args') :
    Frame.Renamed r s (Frame.ofBindings (s.names.zip args))
      (Frame.ofBindings ((s.names.map (s.rename r.x r.y)).zip args')) := by
  -- The arguments are bound one by one, in a frame that has those before them.
  suffices h : ∀ params : List String, (∀ name ∈ params, name ∈ s.names) → ∀ {frame frame' : Frame},
      Frame.Renamed r s frame frame' →
      Frame.Renamed r s ((params.zip args).foldl (fun frame b => frame.insert b.1 b.2) frame)
        (((params.map (s.rename r.x r.y)).zip args').foldl (fun frame b => frame.insert b.1 b.2) frame')
    from h s.names (fun _ => id) .nil
  induction hargs with
  | nil => simp
  | cons hvalue _ ih =>
    intro params hparams frame frame' hframe
    cases params with
    | nil => exact hframe
    | cons name params =>
      obtain ⟨hname, hrest⟩ := List.forall_mem_cons.1 hparams
      exact ih params hrest (hframe.insert hfits hname hvalue)

theorem Environment.Renamed.extend {scopes : List Scope} {env env' : Environment}
    (h : Environment.Renamed r scopes env env') {s : Scope} (hfits : s.Fits r)
    {args args' : List Value} (hargs : List.Forall₂ (Value.Renamed r) args args')
    (count : args.length = s.names.length) :
    Environment.Renamed r (s :: scopes) (env.extend (s.names.zip args))
      (env'.extend ((s.names.map (s.rename r.x r.y)).zip args')) := by
  refine .cons (fun name hname => ?_) hfits (.ofBindings hfits hargs) h
  rw [Frame.names_ofBindings, List.mem_eraseDups, List.map_fst_zip (Nat.le_of_eq count.symm)]
  exact hname

/-! ## Values that both runs start with -/

theorem Frame.Renamed.refl {names : List String} : ∀ {frame : Frame},
    (∀ name ∈ frame.names, name ∈ names) →
      (∀ binding ∈ frame, Value.Renamed r binding.2 binding.2) →
        Frame.Renamed r ⟨names, false⟩ frame frame
  | [], _, _ => .nil
  | (_, _) :: _, hnames, hvalues => by
    obtain ⟨hname, hnames⟩ := List.forall_mem_cons.1 hnames
    obtain ⟨hvalue, hvalues⟩ := List.forall_mem_cons.1 hvalues
    exact .cons hname hvalue (.refl hnames hvalues)

/-- The scopes of an environment in which nothing is renamed. -/
def Environment.scopes (env : Environment) : List Scope :=
  env.map fun frame => ⟨Frame.names frame, false⟩

theorem Environment.unmoved_scopes (env : Environment) : Scope.Unmoved env.scopes := by
  intro s hs
  obtain ⟨frame, -, rfl⟩ := List.mem_map.1 hs
  rfl

theorem Environment.Renamed.refl {env : Environment}
    (h : ∀ frame ∈ env, ∀ binding ∈ frame, Value.Renamed r binding.2 binding.2) :
    Environment.Renamed r env.scopes env env := by
  induction env with
  | nil => exact .nil
  | cons frame env ih =>
    obtain ⟨hframe, hrest⟩ := List.forall_mem_cons.1 h
    exact .cons (fun _ => id) (fun hmoved => nomatch hmoved) (.refl (fun _ => id) hframe) (ih hrest)

theorem Value.Renamed.refl (v : Value) : Value.Renamed r v v := by
  induction v with
  | pair cell head tail ihhead ihtail => exact .pair ihhead ihtail
  | closure cell params body env ih => exact .closure (.of_unmoved env.unmoved_scopes _) (.refl ih)
  | _ => exact .plain rfl

/-! ## What programs can tell -/

namespace Expr

mutual

/-- Renaming changes no depth of a text. -/
theorem Recoded.frames : ∀ {scopes : List Scope} {e e' : Expr}, Recoded r scopes e e' →
    e.sourceFrames = e'.sourceFrames ∧ e.debugFrames = e'.debugFrames
  | _, _, _, .literal _ => ⟨rfl, rfl⟩
  | _, _, _, .identifier _ => ⟨rfl, rfl⟩
  | _, _, _, .quote _ => ⟨rfl, rfl⟩
  | _, _, _, .branch hq ha => by
    simp only [sourceFrames, debugFrames, hq.frames, ha.frames, and_self]
  | _, _, _, .cond h => by
    simp only [sourceFrames, debugFrames, h.frames, and_self]
  | _, _, _, .lambda _ _ h => by
    simp only [sourceFrames, debugFrames, h.frames, and_self]
  | _, _, _, .app hfunc hargs => by
    simp only [sourceFrames, debugFrames, hfunc.frames, hargs.frames, and_self]
  | _, _, _, .empty => ⟨rfl, rfl⟩

theorem RecodedBranches.frames : ∀ {scopes : List Scope} {branches others : List (Expr × Expr)},
    RecodedBranches r scopes branches others →
      branchSourceFrames branches = branchSourceFrames others ∧
        branchDebugFrames branches = branchDebugFrames others
  | _, _, _, .nil => ⟨rfl, rfl⟩
  | _, _, _, .cons hq ha h => by
    simp only [branchSourceFrames, branchDebugFrames, hq.frames, ha.frames, h.frames, and_self]

theorem RecodedAll.frames : ∀ {scopes : List Scope} {es others : List Expr},
    RecodedAll r scopes es others →
      sourceFramesOf es = sourceFramesOf others ∧ debugFramesOf es = debugFramesOf others
  | _, _, _, .nil => ⟨rfl, rfl⟩
  | _, _, _, .cons he h => by
    simp only [sourceFramesOf, debugFramesOf, he.frames, h.frames, and_self]

end

theorem RecodedBranches.forall₂ {scopes : List Scope} : ∀ {branches others : List (Expr × Expr)},
    RecodedBranches r scopes branches others →
      List.Forall₂ (fun b b' => Recoded r scopes b.1 b'.1 ∧ Recoded r scopes b.2 b'.2)
        branches others
  | _, _, .nil => .nil
  | _, _, .cons hq ha h => .cons ⟨hq, ha⟩ h.forall₂

theorem RecodedAll.forall₂ {scopes : List Scope} : ∀ {es others : List Expr},
    RecodedAll r scopes es others → List.Forall₂ (Recoded r scopes) es others
  | _, _, .nil => .nil
  | _, _, .cons he h => .cons he h.forall₂

end Expr

/-- Runs from one counter of cells, whose code differs by names. -/
def sameButNames : Likeness :=
  { sameExpression 0 with
    binders := fun params others => params.length = others.length
    alike := fun e e' => e.sourceFrames = e'.sourceFrames ∧ e.debugFrames = e'.debugFrames
    sameTexts := False
    binders_refl := fun _ => rfl
    binders_length := fun h => h
    binders_eq := fun same _ => same.elim
    alike_refl := fun _ => ⟨rfl, rfl⟩
    alike_sourceFrames := fun h => h.1
    alike_debugFrames := fun h => h.2
    alike_source := fun same _ => same.elim
    alike_branch := fun same _ => same.elim }

theorem Value.Renamed.resembles {v w : Value} (h : Value.Renamed r v w) :
    sameButNames.Resembles v w := by
  induction v generalizing w with
  | pair cell head tail ihhead ihtail =>
    cases h with
    | plain hplain => exact .plain hplain
    | pair hhead htail => exact .pair rfl (ihhead hhead) (ihtail htail)
  | closure cell params body env _ =>
    cases h with
    | plain hplain => exact .plain hplain
    | closure hcode =>
      cases hcode with
      | lambda s _ hbody => exact .closure rfl (List.length_map _).symm hbody.frames
  | _ =>
    cases h with
    | plain hplain => exact .plain hplain

/-- Values without closures that are equal up to the renaming are the same. -/
theorem Value.Renamed.eq_of_no_closures {v w : Value} (h : Value.Renamed r v w)
    (hclosures : v.AllClosures fun _ _ _ _ => False) : v = w := by
  induction v generalizing w with
  | pair cell head tail ihhead ihtail =>
    cases h with
    | plain => rfl
    | pair hhead htail =>
      obtain ⟨hh, ht⟩ := Value.allClosures_pair.1 hclosures
      rw [ihhead hhead hh, ihtail htail ht]
  | closure => exact (Value.allClosures_closure.1 hclosures).1.elim
  | _ =>
    cases h with
    | plain => rfl

/-! ## Runs -/

/-- An expression before and after the renaming, in environments before and after it. -/
def RenamedCode (r : ParamRenaming) (e : Expr) (env : Environment) (e' : Expr)
    (env' : Environment) : Prop :=
  ∃ scopes, e.Recoded r scopes e' ∧ Environment.Renamed r scopes env env'

theorem Environment.Renamed.runs_atom {scopes : List Scope} {env env' : Environment}
    (henv : Environment.Renamed r scopes env env') {a b : Atom}
    (hmeans : Scope.Means r.x r.y scopes a.name b.name) (hsame : a.name = b.name → a = b) :
    (sameButNames.couplingTo sameButNames.sameKinds).Runs (Value.Renamed r)
      (liftM (env.valueOf a)) (liftM (env'.valueOf b)) := by
  rcases henv.get? hmeans with ⟨v, w, hv, hw, hvw⟩ | ⟨hv, hw, hname⟩
  · rw [valueOf_of_bound hv, valueOf_of_bound hw]
    exact .pure hvw
  · rw [valueOf_of_unbound hv, valueOf_of_unbound hw, hsame hname]
    cases Environment.valueOf [] b with
    | ok v => exact .pure (.refl v)
    | error fault => exact .throw (.refl _ fault)

theorem RenamedCode.parts {e e' : Expr} {env env' : Environment}
    (h : RenamedCode r e env e' env') :
    sameButNames.Parts sameButNames.sameKinds (Value.Renamed r) (RenamedCode r) env env' e e' := by
  obtain ⟨scopes, hcode, henv⟩ := h
  have hframes := hcode.frames
  cases hcode with
  | literal hmeans => exact .atom rfl rfl (henv.runs_atom hmeans (congrArg Atom.literal))
  | identifier hmeans => exact .atom rfl rfl (henv.runs_atom hmeans (congrArg Atom.identifier))
  | quote => exact .quote
  | branch => exact .branch hframes
  | cond h =>
    exact .cond hframes (h.forall₂.imp fun b b' hb => ⟨⟨scopes, hb.1, henv⟩, scopes, hb.2, henv⟩)
  | lambda s hmoved h =>
    refine .lambda ?_
    rintro c _ ⟨rfl, -⟩
    exact .closure (.lambda s hmoved h) henv
  | app hfunc hargs =>
    exact .app ⟨scopes, hfunc, henv⟩ (hargs.forall₂.imp fun a a' ha => ⟨scopes, ha, henv⟩)
  | empty => exact .empty

/-- Values that are equal up to the renaming, and code before and after it, are handed on by each step. -/
def renamedSideBySide (r : ParamRenaming) : SideBySide where
  like := sameButNames
  endings := sameButNames.sameKinds
  values := Value.Renamed r
  code := RenamedCode r
  resembles h := h.resembles
  plain := .plain
  pair := by
    rintro c _ _ _ _ _ ⟨rfl, -⟩ hhead htail
    exact .pair hhead htail
  tail h := by
    cases h with
    | plain hplain => cases hplain
    | pair _ htail => exact htail
  call h hargs count _ := by
    cases h with
    | plain hplain => cases hplain
    | closure hcode henv =>
      cases hcode with
      | lambda s hmoved hbody =>
        -- The frame of the call is one more scope, renamed if the lambda is the one of the renaming.
        exact ⟨_, hbody, henv.extend (fun h => (hmoved h).1) hargs count⟩
  parts := RenamedCode.parts

/-! ## Outcomes -/

/-- Values that are equal up to the renaming inside closures: of one kind, and if there are no closures in
them equal to each other. -/
structure EqualUpToRenaming (r : ParamRenaming) (v w : Value) : Prop where
  renamed : Value.Renamed r v w
  kind : v.kind = w.kind
  equal : (∀ cell params body env, ¬ v.Reaches (.closure cell params body env)) →
    v.isEqual w = true

/-- Outcomes with such values, or with faults of one kind. -/
inductive SameUpToRenaming (r : ParamRenaming) : Outcome Value → Outcome Value → Prop
  | value {v w : Value} {m : Nat} (h : EqualUpToRenaming r v w) :
      SameUpToRenaming r (.ok v m) (.ok w m)
  | fault {f g : Fault} {m : Nat} (kind : f.kind = g.kind) :
      SameUpToRenaming r (.error f m) (.error g m)

theorem Value.Renamed.equalUpToRenaming {v w : Value} (h : Value.Renamed r v w) :
    EqualUpToRenaming r v w where
  renamed := h
  kind := h.resembles.kind
  equal hclosures := by
    rw [← h.eq_of_no_closures hclosures]
    exact v.isEqual_refl

theorem Expr.RenamesParam.outcomes {e e' : Expr} (h : e.RenamesParam r e') (env : Environment)
    (frames next : Nat) :
    SameUpToRenaming r (eval frames e env next) (eval frames e' env next) ∧
      (Finished (eval frames e env next) ↔ Finished (eval frames e' env next)) := by
  have hcode : (renamedSideBySide r).code e env e' env :=
    ⟨env.scopes, h.recoded env.unmoved_scopes, .refl fun _ _ binding _ => .refl binding.2⟩
  have hruns := (renamedSideBySide r).runs_eval frames hcode next next ⟨rfl, Nat.zero_le next⟩
  generalize eval frames e env next = o at hruns ⊢
  generalize eval frames e' env next = o' at hruns ⊢
  cases hruns with
  | ok hvalue hcounters =>
    obtain ⟨rfl, -⟩ := hcounters
    exact ⟨.value hvalue.equalUpToRenaming, Iff.rfl⟩
  | error hfaults hcounters =>
    obtain ⟨rfl, -⟩ := hcounters
    exact ⟨.fault hfaults.kind, not_congr hfaults.outOfFrames⟩
  | excused hfault => exact hfault.elim

/-- The names of parameters do not matter: an expression in which one parameter of one lambda is renamed, with
the atoms that mean it, comes to what it came to before, up to that renaming in closures, within any
number of frames and without a limit. -/
theorem parameter_names_do_not_matter {r : ParamRenaming} {e e' : Expr} (h : e.RenamesParam r e')
    (env : Environment) (next : Nat) :
    (∀ frames, SameUpToRenaming r (eval frames e env next) (eval frames e' env next)) ∧
      ((∃ o, EndsWith e env next o) ↔ ∃ o, EndsWith e' env next o) ∧
      ∀ o o', EndsWith e env next o → EndsWith e' env next o' → SameUpToRenaming r o o' := by
  refine ⟨fun frames => (h.outcomes env frames next).1, ⟨?_, ?_⟩, fun o o' ho ho' => ?_⟩
  · rintro ⟨o, ho⟩
    exact ho.transfer fun frames => (h.outcomes env frames next).2.1
  · rintro ⟨o, ho⟩
    exact ho.transfer fun frames => (h.outcomes env frames next).2.2
  · exact ho.related ho' fun frames => (h.outcomes env frames next).1

/-- A parameter that an inner closure captures, which the program returns. -/
theorem renamed_parameter_of_escaping_closure :
    let body (name : String) := Expr.app (.literal "cons") [.literal name, .literal "z"]
    let e (name : String) := Expr.app (.lambda [name] (.lambda ["z"] (body name))) [.literal "1"]
    eval 9 (e "x") [] 0 = .ok (.closure 1 ["z"] (body "x") [[("x", .int 1)]]) 2 ∧
      eval 9 (e "y") [] 0 = .ok (.closure 1 ["z"] (body "y") [[("y", .int 1)]]) 2 ∧
      ∃ r : ParamRenaming, r.x = "x" ∧ r.y = "y" ∧ (e "x").RenamesParam r (e "y") ∧
        SameUpToRenaming r (eval 9 (e "x") [] 0) (eval 9 (e "y") [] 0) ∧
        ((∃ o, EndsWith (e "x") [] 0 o) ↔ ∃ o, EndsWith (e "y") [] 0 o) := by
  intro body e
  have hbody : ¬ Expr.Captures "x" "y" (.app (.literal "cons") [.literal "x", .literal "z"]) := by
    intro h
    cases h with
    | head h => cases h
    | arg he h => rcases List.mem_pair.1 he with rfl | rfl <;> cases h
  have hinner : ¬ Expr.Captures "x" "y" (.lambda ["z"] (body "x")) := by
    intro h
    cases h with
    | here _ hy _ => exact absurd hy (by decide)
    | body _ h => exact hbody h
  let r : ParamRenaming := ⟨"x", "y", ["x"], .lambda ["z"] (body "x"),
    by decide, by decide, by decide, by decide, hinner⟩
  have h : (e "x").RenamesParam r (e "y") := .head .here
  have hsame := parameter_names_do_not_matter h [] 0
  exact ⟨by cbv, by cbv, r, rfl, rfl, h, hsame.1 9, hsame.2.1⟩

end MiniLisp
