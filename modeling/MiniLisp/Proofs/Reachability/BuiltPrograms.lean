import MiniLisp.Proofs.Building.EnoughRoom
import MiniLisp.Proofs.Building.Failures
import MiniLisp.Proofs.Building.Grammar
import MiniLisp.Proofs.Reachability.RunInvariant

/-!
Programs made by the builder. Their parts are again such programs, their quoted data have a value unless a
numeral is too long, and so no run of theirs fails for a reason that only expressions made otherwise
can give.
-/

namespace MiniLisp

/-- The builder makes the expression of some S-expression. -/
def Buildable (e : Expr) : Prop :=
  ∃ room node, Expr.build room node = .ok e

/-- Kinds of faults that say that a program is not one, or that a part of it is unknown. -/
def internalKinds : List FaultKind :=
  [.structural, .build, .unknownPrimitive, .unevaluable]

theorem not_internal_of_runtime {kind : FaultKind} (h : kind.isRuntime = true) :
    kind ∉ internalKinds := by
  cases kind with
  | type | arity | uncallable | noTrueQuestion | digits | depth => decide
  | _ => cases h

theorem not_internal_of_limit {kind : FaultKind} (h : kind ∈ [FaultKind.digits, .depth]) :
    kind ∉ internalKinds := by
  cases kind with
  | digits | depth => decide
  | _ => simp at h

/-! ## Parts of built expressions -/

theorem buildable_iff {e : Expr} : Buildable e ↔ ∃ node, Builds node e := by
  constructor
  · rintro ⟨room, node, h⟩
    have hunlimited := (Expr.build_graded node).eq_unlimited room (by rw [h]; simp)
    exact ⟨node, Expr.build_eq_ok_iff.1 (hunlimited.trans h)⟩
  · rintro ⟨node, h⟩
    exact ⟨.unlimited, node, Expr.build_eq_ok_iff.2 h⟩

theorem BuildsClauses.buildable : ∀ {clauses : List SExpr} {branches : List (Expr × Expr)},
    BuildsClauses clauses branches → ∀ b ∈ branches, Buildable b.1 ∧ Buildable b.2
  | _, _, .nil, _, hb => nomatch hb
  | _, _, .cons hq ha h, b, hb => by
    have hrest := h.buildable
    rcases List.mem_cons.1 hb with rfl | hb
    · exact ⟨buildable_iff.2 ⟨_, hq⟩, buildable_iff.2 ⟨_, ha⟩⟩
    · exact hrest b hb

theorem BuildsAll.buildable : ∀ {items : List SExpr} {es : List Expr},
    BuildsAll items es → ∀ e ∈ es, Buildable e
  | _, _, .nil, _, he => nomatch he
  | _, _, .cons hitem h, e, he => by
    have hrest := h.buildable
    rcases List.mem_cons.1 he with rfl | he
    · exact buildable_iff.2 ⟨_, hitem⟩
    · exact hrest e he

namespace Buildable

theorem cond {branches : List (Expr × Expr)} (h : Buildable (.cond branches)) :
    ∀ b ∈ branches, Buildable b.1 ∧ Buildable b.2 := by
  obtain ⟨node, h⟩ := buildable_iff.1 h
  cases h with
  | cond hclauses => exact hclauses.buildable

theorem lambda {params : List String} {body : Expr} (h : Buildable (.lambda params body)) :
    Buildable body := by
  obtain ⟨node, h⟩ := buildable_iff.1 h
  cases h with
  | lambda nodup hbody => exact buildable_iff.2 ⟨_, hbody⟩

theorem nodup_params {params : List String} {body : Expr} (h : Buildable (.lambda params body)) :
    params.Nodup := by
  obtain ⟨node, h⟩ := buildable_iff.1 h
  cases h with
  | lambda nodup hbody => exact nodup

theorem app {func : Expr} {args : List Expr} (h : Buildable (.app func args)) :
    Buildable func ∧ ∀ a ∈ args, Buildable a := by
  obtain ⟨node, h⟩ := buildable_iff.1 h
  cases h with
  | app notKeyword hfunc hargs => exact ⟨buildable_iff.2 ⟨_, hfunc⟩, hargs.buildable⟩

theorem quote {d : Expr} (h : Buildable (.quote d)) : ∃ node, d = .ofQuoted node := by
  obtain ⟨node, h⟩ := buildable_iff.1 h
  cases h with
  | quote => exact ⟨_, rfl⟩

theorem not_empty : ¬ Buildable .empty := by
  intro h
  obtain ⟨node, h⟩ := buildable_iff.1 h
  cases h

theorem not_identifier (name : String) : ¬ Buildable (.identifier name) := by
  intro h
  obtain ⟨node, h⟩ := buildable_iff.1 h
  cases h

theorem not_branch (question answer : Expr) : ¬ Buildable (.branch question answer) := by
  intro h
  obtain ⟨node, h⟩ := buildable_iff.1 h
  cases h

end Buildable

/-! ## Quoted data of built expressions -/

namespace Expr

open FailsOnly

mutual

theorem datum_ofQuoted : ∀ (node : SExpr) (room : Headroom),
    FailsOnly [.digits, .depth] ((ofQuoted node).datum room)
  | .atom text, room => by
    rw [ofQuoted, datum]
    exact (enter (by decide) room).bind fun _ => ofDigits (by decide) _
  | .list [], room => by
    rw [ofQuoted, datum]
    exact (enter (by decide) room).bind fun _ => ok _
  | .list (head :: rest), room => by
    rw [ofQuoted, datum]
    exact (enter (by decide) room).bind fun _ => (datum_ofQuoted head _).bind fun _ =>
      (dataOf_ofQuotedItems rest _).bind fun _ => ok _

theorem dataOf_ofQuotedItems : ∀ (items : List SExpr) (room : Headroom),
    FailsOnly [.digits, .depth] (dataOf room (ofQuotedItems items))
  | [], room => by
    rw [ofQuotedItems, dataOf]
    exact ok _
  | item :: items, room => by
    rw [ofQuotedItems, dataOf]
    exact (datum_ofQuoted item room).bind fun _ =>
      (dataOf_ofQuotedItems items room).bind fun _ => ok _

end

end Expr

/-! ## Runs of built expressions -/

theorem resolve_not_internal {env : Environment} {text : String} {fault : Fault}
    (h : env.resolve text = .error fault) : fault.kind ∉ internalKinds := by
  have hresolves := resolves_resolve env text
  rw [h] at hresolves
  cases hresolves with
  | digits => exact not_internal_of_runtime rfl
  | unbound =>
    show FaultKind.unbound ∉ internalKinds
    decide

/-- Expressions that the builder makes, and closures with such bodies. -/
def builtPrograms : RunInvariant where
  safe e _ := Buildable e
  closure _ _ body _ := Buildable body
  allowed fault := fault.kind ∉ internalKinds
  runtime h := not_internal_of_runtime h
  literal _ hfault := resolve_not_internal hfault
  -- The builder makes no identifiers and no empty expression, and branches only as parts of a `cond`.
  identifier h _ := absurd h (Buildable.not_identifier _)
  quote h hfault := by
    obtain ⟨node, rfl⟩ := h.quote
    exact not_internal_of_limit (Expr.datum_ofQuoted node _ _ hfault)
  empty h := absurd h Buildable.not_empty
  branch h := absurd h (Buildable.not_branch _ _)
  cond h hb := h.cond _ hb
  head h := h.app.1
  arg h ha := h.app.2 _ ha
  lambda h _ := h.lambda
  call h _ := h

/-- A program made by the builder, run where all closures have bodies made by it, never ends with a fault of
an internal kind, and the closures in its value have bodies made by the builder again. -/
theorem built_programs_never_fail_internally {room : Headroom} {node : SExpr} {e : Expr}
    (hbuild : Expr.build room node = .ok e) {env : Environment}
    (henv : ∀ cell params body captured, env.Reaches (.closure cell params body captured) →
      Buildable body) (frames next : Nat) :
    match eval frames e env next with
    | .ok v _ => ∀ cell params body captured, v.Reaches (.closure cell params body captured) →
      Buildable body
    | .error fault _ => fault.kind ∉ internalKinds := by
  have hbuilt : builtPrograms.safe e env := ⟨room, node, hbuild⟩
  have hrun := builtPrograms.ensures_eval frames hbuilt henv next
  cases hresult : eval frames e env next with
  | ok v m =>
    rw [hresult] at hrun
    exact hrun
  | error fault m =>
    rw [hresult] at hrun
    exact hrun

/-- A call of a closure from the environment, whose value is a closure made in its body. -/
theorem call_of_built_closure :
    let f : Value := .closure 0 ["x"] (.lambda ["y"] (.literal "x")) []
    let e : Expr := .app (.literal "f") [.quote .empty]
    Expr.build .unlimited (.list [.atom "f", .list [.atom "quote", .list []]]) = .ok e ∧
      (∀ cell params body captured,
        Environment.Reaches [[("f", f)]] (.closure cell params body captured) → Buildable body) ∧
      eval 9 e [[("f", f)]] 5 = .ok (.closure 5 ["y"] (.literal "x") [[("x", .nil)]]) 6 ∧
      Buildable (.literal "x") := by
  intro f e
  have hbuild : Expr.build .unlimited (.list [.atom "f", .list [.atom "quote", .list []]]) = .ok e := by
    cbv
  have hbody : Buildable (.lambda ["y"] (.literal "x")) :=
    ⟨.unlimited, .list [.atom "lambda", .list [.atom "y"], .atom "x"], by cbv⟩
  have henv : Environment.AllClosures (fun _ _ body _ => Buildable body) [[("f", f)]] := by
    simp [Environment.allClosures_iff, f, hbody]
  have hrun : eval 9 e [[("f", f)]] 5 = .ok (.closure 5 ["y"] (.literal "x") [[("x", .nil)]]) 6 := by
    cbv
  have hvalue := built_programs_never_fail_internally hbuild henv 9 5
  rw [hrun] at hvalue
  exact ⟨hbuild, henv, hrun, hvalue 5 ["y"] (.literal "x") _ (.refl _)⟩

end MiniLisp
