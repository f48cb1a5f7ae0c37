import MiniLisp.Proofs.Building.Failures
import MiniLisp.Proofs.Reachability.RunInvariant
import MiniLisp.Proofs.Scopes.CallFrame
import MiniLisp.Proofs.Scopes.FreeNames

/-!
Programs whose names all mean something. A free atom of an expression means something in its
environment if it is bound there, or if it is a literal that stands for itself. If all free atoms of an
expression and of the closures in its environment do, no run reports an unbound name, and the closures in
its value are such closures again.
-/

namespace MiniLisp

/-- The atom means something in the environment. -/
inductive Environment.GivesMeaning (env : Environment) : Atom → Prop
  | bound {a : Atom} {v : Value} (h : Binds env a.name v) : GivesMeaning env a
  /-- A sign and digits, however many. -/
  | integer {text : String} {negative : Bool} {digits : List Char}
      (h : Numeral.parts? text.toList = some (negative, digits)) : GivesMeaning env (.literal text)
  | boolean {text : String} (h : text ∈ [trueWord, elseWord, falseWord]) :
      GivesMeaning env (.literal text)
  | primitive (op : Primitive) : GivesMeaning env (.literal op.name)

/-! ## Atoms -/

theorem Numeral.read_ne_of_parts? {text : String} {negative : Bool} {digits : List Char}
    (h : Numeral.parts? text.toList = some (negative, digits)) : Numeral.read text ≠ .ok none := by
  rw [Numeral.read, h]
  dsimp only
  split <;> simp

namespace Environment

variable {env : Environment} {a : Atom}

/-- Finding the value of an atom fails with a digit limit, or since the atom means nothing. -/
theorem valueOf_eq_error {fault : Fault} (h : env.valueOf a = .error fault) :
    fault.kind = .digits ∨ fault = .unbound a.name ∧ ¬ env.GivesMeaning a := by
  cases a with
  | literal text =>
    have hresolves := resolves_resolve env text
    rw [valueOf] at h
    rw [h] at hresolves
    cases hresolves with
    | digits => exact .inl rfl
    | unbound word notBoolean notPrimitive =>
      -- The word has failed every test that would have given it a meaning.
      refine .inr ⟨rfl, fun hmeaning => ?_⟩
      cases hmeaning with
      | bound hbinds => exact word.lacks.not_binds _ hbinds
      | integer hparts => exact Numeral.read_ne_of_parts? hparts word.notInteger
      | boolean hword => exact notBoolean hword
      | primitive op => exact notPrimitive op rfl
  | identifier name =>
    rw [valueOf, lookup] at h
    cases hget : env.get? name with
    | some v => rw [hget] at h; cases h
    | none =>
      rw [hget] at h
      cases h
      refine .inr ⟨rfl, fun hmeaning => ?_⟩
      cases hmeaning with
      | bound hbinds => exact (lacks_iff.2 hget).not_binds _ hbinds

theorem get?_of_meaningless {text : String}
    (h : ¬ env.GivesMeaning (.literal text)) : env.get? text = none := by
  cases hget : env.get? text with
  | none => rfl
  | some v => exact absurd (.bound (binds_iff.2 hget)) h

/-- A literal means nothing exactly if it is not bound and spells no integer, boolean or primitive. -/
theorem not_givesMeaning_literal {text : String} :
    ¬ env.GivesMeaning (.literal text) ↔ env.get? text = none ∧
      Numeral.parts? text.toList = none ∧ text ∉ [trueWord, elseWord, falseWord] ∧
        Primitive.named? text = none := by
  constructor
  · intro h
    refine ⟨get?_of_meaningless h, ?_, fun hword => h (.boolean hword), ?_⟩
    · exact Option.eq_none_iff_forall_ne_some.2 fun found hparts => h (.integer hparts)
    · refine Option.eq_none_iff_forall_ne_some.2 fun op hop => h ?_
      exact Primitive.named?_eq_some_iff.1 hop ▸ .primitive op
  · rintro ⟨hget, hparts, hwords, hop⟩ h
    generalize hliteral : Atom.literal text = a at h
    cases h with
    | bound hbinds => cases hliteral; exact (lacks_iff.2 hget).not_binds _ hbinds
    | integer hinteger => cases hliteral; rw [hparts] at hinteger; cases hinteger
    | boolean hword => cases hliteral; exact hwords hword
    | primitive op => cases hliteral; rw [Primitive.named?_name] at hop; cases hop

/-- A name without a meaning is reported as unbound. -/
theorem valueOf_of_meaningless (h : ¬ env.GivesMeaning (.literal a.name)) :
    valueOf [] a = .error (.unbound a.name) := by
  cases a with
  | literal text =>
    obtain ⟨-, hparts, hwords, hop⟩ := not_givesMeaning_literal.1 h
    rw [Atom.name] at hparts hwords hop
    have word : IsFreeWord [] text := ⟨lacks_iff.2 rfl, by rw [Numeral.read, hparts]⟩
    refine Resolves.eq_resolve (.unbound word hwords fun op hname => ?_)
    rw [hname, Primitive.named?_name] at hop
    cases hop
  | identifier name => rfl

/-- What means something around a call means something in its scope, and so does each parameter. -/
theorem givesMeaning_extend_zip {params : List String} {args : List Value}
    (count : args.length = params.length) (h : a.name ∉ params → env.GivesMeaning a) :
    (env.extend (params.zip args)).GivesMeaning a := by
  have hget := env.get?_extend_zip count a.name
  -- A parameter is bound to its argument, and any other name means what it meant around the call.
  cases hslot : slot params a.name with
  | some i =>
    rw [hslot] at hget
    have hi : i < args.reverse.length := by
      rw [List.length_reverse, count]
      exact slot_lt hslot
    exact .bound (binds_iff.2 (hget.trans (List.getElem?_eq_getElem hi)))
  | none =>
    rw [hslot] at hget
    cases h (slot_eq_none_iff.1 hslot) with
    | bound hbinds => exact .bound (binds_iff.2 (hget.trans (binds_iff.1 hbinds)))
    | integer hparts => exact .integer hparts
    | boolean hword => exact .boolean hword
    | primitive op => exact .primitive op

end Environment

/-! ## Runs -/

/-- All free atoms of the expression with these names mean something in the environment. -/
def Expr.Resolved (names : String → Prop) (e : Expr) (env : Environment) : Prop :=
  ∀ a : Atom, names a.name → e.HasFree a → env.GivesMeaning a

theorem Expr.Resolved.not_unbound {names : String → Prop} {e : Expr} {env : Environment} {a : Atom}
    {fault : Fault} (h : e.Resolved names env) (ha : e.atom? = some a)
    (hfault : env.valueOf a = .error fault) : ∀ name, names name → fault ≠ .unbound name := by
  rintro name hname rfl
  rcases Environment.valueOf_eq_error hfault with hkind | ⟨hsame, hmeaningless⟩
  · cases hkind
  · cases hsame
    exact hmeaningless (h a hname (.here ha))

/-- Expressions whose free atoms of these names mean something where they are evaluated, and closures
whose lambdas are such expressions where they were made. No run reports one of the names as unbound. -/
def resolvedNames (names : String → Prop) : RunInvariant where
  safe e env := e.Resolved names env
  closure _ params body env := (Expr.lambda params body).Resolved names env
  allowed fault := ∀ name, names name → fault ≠ .unbound name
  runtime h := by
    rintro name - rfl
    cases h
  literal h hfault := h.not_unbound rfl hfault
  identifier h hfault := h.not_unbound rfl hfault
  quote _ hfault := by
    rintro name - rfl
    have hkind := Expr.datum_failsOnly _ _ _ hfault
    simp [Fault.kind] at hkind
  empty _ := by simp
  branch _ := by simp
  cond h hb := ⟨fun a hname hfree => h a hname (.question hb hfree),
    fun a hname hfree => h a hname (.answer hb hfree)⟩
  head h a hname hfree := h a hname (.head hfree)
  arg h ha a hname hfree := h a hname (.arg ha hfree)
  lambda h _ := h
  -- The scope of a call has the parameters, and what the lambda left free means what it meant there.
  call h count a hname hfree :=
    Environment.givesMeaning_extend_zip count fun notParam => h a hname (.body hfree notParam)

/-- A program whose free atoms mean something, run where the closures have such bodies, never reports an
unbound name, and the closures in its value have such bodies again. A name that is free neither in the
program nor in a closure that it can get at, as that of a parameter is where lambdas around its
occurrences have it, is not reported even if others are. -/
theorem resolved_names_are_never_unbound (e : Expr) (env : Environment) (frames next : Nat) :
    ((∀ a, e.HasFree a → env.GivesMeaning a) →
      (∀ cell params body captured, env.Reaches (.closure cell params body captured) →
        ∀ a, body.HasFree a → a.name ∉ params → Environment.GivesMeaning captured a) →
      match eval frames e env next with
      | .ok v _ => ∀ cell params body captured, v.Reaches (.closure cell params body captured) →
        ∀ a, body.HasFree a → a.name ∉ params → Environment.GivesMeaning captured a
      | .error fault _ => fault.kind ≠ .unbound) ∧
    ∀ name, name ∉ e.freeNames →
      (∀ cell params body captured, env.Reaches (.closure cell params body captured) →
        name ∉ (Expr.lambda params body).freeNames) →
      ∀ m, eval frames e env next ≠ .error (.unbound name) m := by
  constructor
  · intro he henv
    have hclosures : env.AllClosures (resolvedNames fun _ => True).closure :=
      fun cell params body captured hreaches a _ hfree =>
        have ⟨hbody, notParam⟩ := Expr.hasFree_lambda.1 hfree
        henv cell params body captured hreaches a hbody notParam
    have he : (resolvedNames fun _ => True).safe e env := fun a _ => he a
    cases hrun : eval frames e env next with
    | ok v m =>
      have hvalue := RunInvariant.allClosures_of_eval hrun he hclosures
      exact fun cell params body captured hreaches a hbody notParam =>
        hvalue cell params body captured hreaches a trivial (.body hbody notParam)
    | error fault m =>
      intro hkind
      cases fault with
      | unbound name => exact RunInvariant.allowed_of_eval hrun he hclosures name trivial rfl
      | _ => cases hkind
  · intro name he henv m hrun
    have hsafe : (resolvedNames (· = name)).safe e env := by
      rintro a rfl hfree
      exact absurd (Expr.mem_freeNames_of_hasFree hfree) he
    have hclosures : env.AllClosures (resolvedNames (· = name)).closure := by
      rintro cell params body captured hreaches a rfl hfree
      exact absurd (Expr.mem_freeNames_of_hasFree hfree) (henv cell params body captured hreaches)
    exact RunInvariant.allowed_of_eval hrun hsafe hclosures name rfl rfl

/-- A closure that escapes with its frame beside one from the environment, and a program that reports a
name, but not that of the parameter around it. -/
theorem names_of_two_programs :
    let g : Value := .closure 3 ["n"] (.app (.literal "k") [.literal "n"]) [[("k", .primitive .incr)]]
    let inner : Expr := .app (.literal "cons") [.literal "x", .literal "y"]
    let e : Expr := .app (.lambda ["x"]
      (.app (.literal "cons") [.lambda ["y"] inner, .identifier "g"])) [.literal "-2"]
    let env : Environment := [[("g", g)]]
    let escaped : Environment := [("x", .int (-2))] :: env
    let reporting : Expr := .app (.lambda ["x"] (.app (.literal "cons") [.literal "x", .literal "z"]))
      [.literal "1"]
    (∀ a, e.HasFree a → env.GivesMeaning a) ∧
      eval 9 e env 4 = .ok (.pair 6 (.closure 5 ["y"] inner escaped) g) 7 ∧
      (∀ a, inner.HasFree a → a.name ∉ ["y"] → escaped.GivesMeaning a) ∧
      eval 9 reporting [] 4 = .error (.unbound "z") 5 ∧
      ∀ m, eval 9 reporting [] 4 ≠ .error (.unbound "x") m := by
  intro g inner e env escaped reporting
  have he : ∀ a, e.HasFree a → env.GivesMeaning a := by
    intro a hfree
    simp only [e, inner, Expr.hasFree_app, Expr.hasFree_lambda, Expr.hasFree_literal,
      Expr.hasFree_identifier, List.mem_cons, List.not_mem_nil, or_false, exists_eq_or_imp,
      exists_eq_left] at hfree
    rcases hfree with ⟨rfl | ⟨rfl | rfl | rfl, hy⟩ | rfl, hx⟩ | rfl
    · exact .primitive .cons
    · exact .primitive .cons
    · exact absurd rfl hx
    · exact absurd rfl hy
    · exact .bound (.here rfl)
    · exact .integer (by rfl : Numeral.parts? "-2".toList = some (true, ['2']))
  have henv : env.AllClosures fun _ params body captured =>
      ∀ a, body.HasFree a → a.name ∉ params → Environment.GivesMeaning captured a := by
    simp only [Environment.allClosures_iff, env, g, List.mem_singleton, forall_eq,
      Value.allClosures_closure, Value.allClosures_primitive, and_true, Expr.hasFree_app,
      Expr.hasFree_literal, exists_eq_left]
    rintro a (rfl | rfl) notParam
    · exact .bound (.here rfl)
    · exact absurd rfl notParam
  have hrun : eval 9 e env 4 = .ok (.pair 6 (.closure 5 ["y"] inner escaped) g) 7 := by cbv
  have hvalue := (resolved_names_are_never_unbound e env 9 4).1 he henv
  rw [hrun] at hvalue
  have hnames : reporting.freeNames = ["cons", "z", "1"] := by cbv
  have hempty : ∀ cell params body captured,
      Environment.Reaches [] (.closure cell params body captured) →
        "x" ∉ (Expr.lambda params body).freeNames := by
    rintro cell params body captured ⟨frame, hframe, -⟩
    cases hframe
  exact ⟨he, hrun, hvalue 5 ["y"] inner escaped (.head (.refl _)), by cbv,
    (resolved_names_are_never_unbound reporting [] 9 4).2 "x" (by rw [hnames]; decide) hempty⟩

end MiniLisp
