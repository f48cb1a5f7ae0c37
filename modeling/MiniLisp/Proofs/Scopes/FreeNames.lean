import MiniLisp.Proofs.Evaluation.Equations

/-!
Names in expressions: the atoms, which are resolved by name, and the free names and free atoms of an
expression, by which alone its environment can matter.
-/

namespace MiniLisp

/-! ## Atoms -/

/-- An expression that is resolved by name. -/
inductive Atom where
  | literal (text : String)
  | identifier (name : String)

namespace Atom

/-- The name that the environment is searched for. -/
def name : Atom → String
  | .literal text => text
  | .identifier name => name

end Atom

/-- The expression as an atom, if it is one. -/
def Expr.atom? : Expr → Option Atom
  | .literal text => some (.literal text)
  | .identifier name => some (.identifier name)
  | _ => none

namespace Environment

/-- The value of an atom. -/
def valueOf (env : Environment) : Atom → Except Fault Value
  | .literal text => env.resolve text
  | .identifier name => env.lookup name

theorem valueOf_of_bound {env : Environment} {a : Atom} {v : Value} (h : env.get? a.name = some v) :
    env.valueOf a = .ok v := by
  cases a with
  | literal text =>
    rw [valueOf, resolve]
    rw [Atom.name] at h
    rw [h]
  | identifier name =>
    rw [valueOf, lookup]
    rw [Atom.name] at h
    rw [h]

theorem valueOf_of_unbound {env : Environment} {a : Atom} (h : env.get? a.name = none) :
    env.valueOf a = valueOf [] a := by
  cases a with
  | literal text =>
    rw [Atom.name] at h
    simp only [valueOf, resolve, h]
    rfl
  | identifier name =>
    rw [Atom.name] at h
    simp only [valueOf, lookup, h]
    rfl

end Environment

theorem eval_atom {e : Expr} {a : Atom} (h : e.atom? = some a) (frames : Nat) (env : Environment) :
    eval (frames + 1) e env = liftM (env.valueOf a) := by
  cases e with
  | literal text => cases h; rw [eval_literal]; rfl
  | identifier name => cases h; rw [eval_identifier]; rfl
  | _ => cases h

/-! ## Free names -/

namespace Expr

mutual

/-- The names that an expression means by its environment: those of its atoms, but not of its quoted
data, and not those that a lambda around the atom has as a parameter. -/
def freeNames : Expr → List String
  | .literal text => [text]
  | .identifier name => [name]
  | .quote _ => []
  | .branch question answer => question.freeNames ++ answer.freeNames
  | .cond branches => branchFreeNames branches
  | .lambda params body => body.freeNames.filter (· ∉ params)
  | .app func args => func.freeNames ++ freeNamesOf args
  | .empty => []

/-- The free names of the branches of a conditional. -/
def branchFreeNames : List (Expr × Expr) → List String
  | [] => []
  | (question, answer) :: branches =>
    question.freeNames ++ answer.freeNames ++ branchFreeNames branches

/-- The free names of several expressions. -/
def freeNamesOf : List Expr → List String
  | [] => []
  | e :: es => e.freeNames ++ freeNamesOf es

end

theorem mem_freeNames_of_atom {e : Expr} {a : Atom} (h : e.atom? = some a) :
    a.name ∈ e.freeNames := by
  cases e with
  | literal text => cases h; rw [freeNames]; exact List.mem_singleton_self _
  | identifier name => cases h; rw [freeNames]; exact List.mem_singleton_self _
  | _ => cases h

theorem mem_freeNames_lambda {params : List String} {body : Expr} {name : String} :
    name ∈ (lambda params body).freeNames ↔ name ∈ body.freeNames ∧ name ∉ params := by
  rw [freeNames, List.mem_filter, decide_eq_true_iff]

theorem mem_branchFreeNames {branches : List (Expr × Expr)} {name : String} :
    name ∈ branchFreeNames branches ↔
      ∃ b ∈ branches, name ∈ b.1.freeNames ∨ name ∈ b.2.freeNames := by
  induction branches with
  | nil => simp [branchFreeNames]
  | cons b branches ih =>
    rw [branchFreeNames, List.mem_append, List.mem_append, ih]
    simp only [List.mem_cons, exists_eq_or_imp]

theorem mem_freeNamesOf {es : List Expr} {name : String} :
    name ∈ freeNamesOf es ↔ ∃ e ∈ es, name ∈ e.freeNames := by
  induction es with
  | nil => simp [freeNamesOf]
  | cons e es ih =>
    rw [freeNamesOf, List.mem_append, ih]
    simp only [List.mem_cons, exists_eq_or_imp]

/-! ## Free atoms -/

/-- The atom occurs in the expression outside of quoted data, and no lambda around it has its name as a
parameter. -/
inductive HasFree (a : Atom) : Expr → Prop
  | here {e : Expr} (h : e.atom? = some a) : HasFree a e
  | looseQuestion {question answer : Expr} (h : HasFree a question) :
      HasFree a (.branch question answer)
  | looseAnswer {question answer : Expr} (h : HasFree a answer) :
      HasFree a (.branch question answer)
  | question {branches : List (Expr × Expr)} {b : Expr × Expr} (hb : b ∈ branches)
      (h : HasFree a b.1) : HasFree a (.cond branches)
  | answer {branches : List (Expr × Expr)} {b : Expr × Expr} (hb : b ∈ branches)
      (h : HasFree a b.2) : HasFree a (.cond branches)
  | body {params : List String} {body : Expr} (h : HasFree a body) (notParam : a.name ∉ params) :
      HasFree a (.lambda params body)
  | head {func : Expr} {args : List Expr} (h : HasFree a func) : HasFree a (.app func args)
  | arg {func e : Expr} {args : List Expr} (he : e ∈ args) (h : HasFree a e) :
      HasFree a (.app func args)

@[simp] theorem hasFree_literal {a : Atom} {text : String} :
    HasFree a (.literal text) ↔ a = .literal text := by
  constructor
  · intro h
    cases h with
    | here h => exact (Option.some.inj h).symm
  · rintro rfl
    exact .here rfl

@[simp] theorem hasFree_identifier {a : Atom} {name : String} :
    HasFree a (.identifier name) ↔ a = .identifier name := by
  constructor
  · intro h
    cases h with
    | here h => exact (Option.some.inj h).symm
  · rintro rfl
    exact .here rfl

@[simp] theorem hasFree_lambda {a : Atom} {params : List String} {body : Expr} :
    HasFree a (.lambda params body) ↔ HasFree a body ∧ a.name ∉ params := by
  constructor
  · intro h
    cases h with
    | here h => cases h
    | body h notParam => exact ⟨h, notParam⟩
  · exact fun ⟨h, notParam⟩ => .body h notParam

@[simp] theorem hasFree_app {a : Atom} {func : Expr} {args : List Expr} :
    HasFree a (.app func args) ↔ HasFree a func ∨ ∃ e ∈ args, HasFree a e := by
  constructor
  · intro h
    cases h with
    | here h => cases h
    | head h => exact .inl h
    | arg he h => exact .inr ⟨_, he, h⟩
  · rintro (h | ⟨e, he, h⟩)
    · exact .head h
    · exact .arg he h

theorem mem_freeNames_of_hasFree {a : Atom} {e : Expr} (h : HasFree a e) : a.name ∈ e.freeNames := by
  induction h with
  | here h => exact mem_freeNames_of_atom h
  | looseQuestion _ ih => rw [freeNames]; exact List.mem_append_left _ ih
  | looseAnswer _ ih => rw [freeNames]; exact List.mem_append_right _ ih
  | question hb _ ih => rw [freeNames]; exact mem_branchFreeNames.2 ⟨_, hb, .inl ih⟩
  | answer hb _ ih => rw [freeNames]; exact mem_branchFreeNames.2 ⟨_, hb, .inr ih⟩
  | body _ notParam ih => exact mem_freeNames_lambda.2 ⟨ih, notParam⟩
  | head _ ih => rw [freeNames]; exact List.mem_append_left _ ih
  | arg he _ ih => rw [freeNames]; exact List.mem_append_right _ (mem_freeNamesOf.2 ⟨_, he, ih⟩)

end Expr

end MiniLisp
