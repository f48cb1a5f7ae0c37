import MiniLisp.Proofs.Reachability.RunInvariant
import MiniLisp.Proofs.Scopes.CallFrame

/-!
Chains of frames and the nesting of lambdas. Every closure that a run makes is that of a lambda in the
program, or in the body of a closure that was there before, and its chain of frames has one frame for
each lambda around that place, however deep the calls were that led there.
-/

namespace MiniLisp

/-- Inside the first expression, under lambdas with these parameters, from the inside out, stands the
second. Places that are never evaluated do not count: quoted data, and branches outside of
conditionals. -/
inductive Expr.Encloses (whole : Expr) : List (List String) → Expr → Prop
  | whole : Encloses whole [] whole
  | question {enclosing : List (List String)} {branches : List (Expr × Expr)} {b : Expr × Expr}
      (h : Encloses whole enclosing (.cond branches)) (hb : b ∈ branches) :
      Encloses whole enclosing b.1
  | answer {enclosing : List (List String)} {branches : List (Expr × Expr)} {b : Expr × Expr}
      (h : Encloses whole enclosing (.cond branches)) (hb : b ∈ branches) :
      Encloses whole enclosing b.2
  | body {enclosing : List (List String)} {params : List String} {body : Expr}
      (h : Encloses whole enclosing (.lambda params body)) : Encloses whole (params :: enclosing) body
  | head {enclosing : List (List String)} {func : Expr} {args : List Expr}
      (h : Encloses whole enclosing (.app func args)) : Encloses whole enclosing func
  | arg {enclosing : List (List String)} {func e : Expr} {args : List Expr}
      (h : Encloses whole enclosing (.app func args)) (he : e ∈ args) : Encloses whole enclosing e

/-- Code that there is before a run, with the names of the frames that it runs in: the program in its
environment, and the body of each closure that can be got at from there, in a frame of its
parameters in front of what it has captured. -/
inductive Code (e : Expr) (env : Environment) : Expr → List (List String) → Prop
  | program : Code e env e env.frameNames
  | body {cell : Nat} {params : List String} {body : Expr} {captured : Environment}
      (h : env.Reaches (.closure cell params body captured)) :
      Code e env body (params.eraseDups :: captured.frameNames)

/-- The expression stands somewhere in the code, and its environment has a frame for each lambda around
it, with the parameters of that lambda, in front of the frames of the code. -/
def Placed (e : Expr) (env : Environment) (inner : Expr) (scope : Environment) : Prop :=
  ∃ whole outer enclosing, Code e env whole outer ∧ whole.Encloses enclosing inner ∧
    scope.frameNames = enclosing.map List.eraseDups ++ outer

namespace Placed

variable {e : Expr} {env scope : Environment}

theorem program : Placed e env e env :=
  ⟨e, env.frameNames, [], .program, .whole, rfl⟩

theorem part {inner sub : Expr} (h : Placed e env inner scope)
    (hsub : ∀ whole enclosing, Expr.Encloses whole enclosing inner →
      whole.Encloses enclosing sub) : Placed e env sub scope := by
  obtain ⟨whole, outer, enclosing, hcode, hnested, hnames⟩ := h
  exact ⟨whole, outer, enclosing, hcode, hsub whole enclosing hnested, hnames⟩

/-- The body of a lambda in its scope is under one more lambda, and has one more frame. -/
theorem call {params : List String} {body : Expr} {args : List Value}
    (h : Placed e env (.lambda params body) scope) (count : args.length = params.length) :
    Placed e env body (scope.extend (params.zip args)) := by
  obtain ⟨whole, outer, enclosing, hcode, hnested, hnames⟩ := h
  refine ⟨whole, outer, params :: enclosing, hcode, .body hnested, ?_⟩
  rw [scope.frameNames_extend_zip count, hnames, List.map_cons, List.cons_append]

/-- The body of a closure that there was before is code itself. -/
theorem callOld {cell : Nat} {params : List String} {body : Expr} {captured : Environment}
    {args : List Value} (h : env.Reaches (.closure cell params body captured))
    (count : args.length = params.length) :
    Placed e env body (captured.extend (params.zip args)) :=
  ⟨body, _, [], .body h, .whole, captured.frameNames_extend_zip count⟩

end Placed

/-- Expressions that stand in the code, in the frames of their place, and closures that there were before
or whose lambdas are such expressions. -/
def placedCode (e : Expr) (env : Environment) : RunInvariant where
  safe inner scope := Placed e env inner scope
  closure cell params body captured :=
    env.Reaches (.closure cell params body captured) ∨ Placed e env (.lambda params body) captured
  allowed _ := True
  runtime _ := trivial
  literal _ _ := trivial
  identifier _ _ := trivial
  quote _ _ := trivial
  empty _ := trivial
  branch _ := trivial
  cond h hb := ⟨h.part fun _ _ hnested => .question hnested hb,
    h.part fun _ _ hnested => .answer hnested hb⟩
  head h := h.part fun _ _ hnested => .head hnested
  arg h ha := h.part fun _ _ hnested => .arg hnested ha
  lambda h _ := .inr h
  -- The frame of a call goes in front of what the closure has captured, not of the caller's frames.
  call h count := h.elim (Placed.callOld · count) (Placed.call · count)

/-- A closure in the value of a run that was not there before is that of a lambda in the program or in the
body of a closure that was. Its frames are those of the lambdas around that place, with their
parameters, in front of those that the code runs in. So the number of frames that its body sees is a
matter of the place, and not of the calls that led to it. -/
theorem frame_chains_mirror_nesting {e : Expr} {env : Environment} {frames next m : Nat} {v : Value}
    (hrun : eval frames e env next = .ok v m) {cell : Nat} {params : List String} {body : Expr}
    {captured : Environment} (hreaches : v.Reaches (.closure cell params body captured))
    (hnew : ¬ env.Reaches (.closure cell params body captured)) :
    ∃ whole outer enclosing, Code e env whole outer ∧
      whole.Encloses enclosing (.lambda params body) ∧
      captured.frameNames = enclosing.map List.eraseDups ++ outer ∧
      ∀ args, (captured.extend (params.zip args)).length = 1 + enclosing.length + outer.length := by
  have hold : env.AllClosures (placedCode e env).closure := fun _ _ _ _ => .inl
  have hvalue := (placedCode e env).allClosures_of_eval hrun .program hold
  obtain ⟨whole, outer, enclosing, hcode, hnested, hnames⟩ :=
    (hvalue cell params body captured hreaches).resolve_left hnew
  refine ⟨whole, outer, enclosing, hcode, hnested, hnames, fun args => ?_⟩
  calc (captured.extend (params.zip args)).length
      = 1 + captured.frameNames.length := by
        rw [Environment.extend, List.length_cons, Environment.frameNames, List.length_map, Nat.add_comm]
    _ = 1 + enclosing.length + outer.length := by
        rw [hnames, List.length_append, List.length_map, Nat.add_assoc]

/-- Two closures in one value: one made in the body of a closure from the environment, and one under a
lambda of the program with a repeated parameter. -/
theorem frames_of_two_closures :
    let g : Value := .closure 3 ["x"] (.lambda ["y"] (.literal "x")) [[("k", .int 1)]]
    let e : Expr := .app (.lambda ["f", "f"] (.app (.literal "cons")
      [.app (.literal "f") [.literal "5"], .lambda [] (.literal "f")])) [.literal "g", .literal "g"]
    let env : Environment := [[("g", g)]]
    let first : Environment := [[("x", .int 5)], [("k", .int 1)]]
    let second : Environment := [("f", g)] :: env
    eval 12 e env 4 =
        .ok (.pair 7 (.closure 5 ["y"] (.literal "x") first) (.closure 6 [] (.literal "f") second)) 8 ∧
      (∃ whole outer enclosing, Code e env whole outer ∧
        whole.Encloses enclosing (.lambda ["y"] (.literal "x")) ∧
        first.frameNames = enclosing.map List.eraseDups ++ outer) ∧
      ∃ whole outer enclosing, Code e env whole outer ∧
        whole.Encloses enclosing (.lambda [] (.literal "f")) ∧
        second.frameNames = enclosing.map List.eraseDups ++ outer := by
  intro g e env first second
  have hrun : eval 12 e env 4 =
      .ok (.pair 7 (.closure 5 ["y"] (.literal "x") first)
        (.closure 6 [] (.literal "f") second)) 8 := by cbv
  -- The only closure from before was made in cell 3.
  have hold : env.AllClosures fun cell _ _ _ => cell = 3 := by
    simp [Environment.allClosures_iff, env, g]
  have hnew {cell : Nat} {params : List String} {body : Expr} {captured : Environment}
      (hcell : cell ≠ 3) : ¬ env.Reaches (.closure cell params body captured) :=
    fun hreaches => hcell (hold cell params body captured hreaches)
  obtain ⟨whole, outer, enclosing, hcode, hnested, hnames, -⟩ :=
    frame_chains_mirror_nesting hrun (.head (.refl _)) (hnew (by decide))
  obtain ⟨whole', outer', enclosing', hcode', hnested', hnames', -⟩ :=
    frame_chains_mirror_nesting hrun (.tail (.refl _)) (hnew (by decide))
  exact ⟨hrun, ⟨whole, outer, enclosing, hcode, hnested, hnames⟩,
    whole', outer', enclosing', hcode', hnested', hnames'⟩

end MiniLisp
