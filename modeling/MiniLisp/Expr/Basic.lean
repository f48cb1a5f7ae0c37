/-!
Expressions: what a program means once its special forms are recognised. The text of a literal is
resolved only when it is evaluated.
-/

namespace MiniLisp

/-- An expression. -/
inductive Expr where
  /-- The text of an atom: a name, an integer, a boolean or a primitive, as evaluation decides. -/
  | literal (text : String)
  /-- A name that only an environment resolves. -/
  | identifier (name : String)
  /-- Data that stand for themselves. -/
  | quote (datum : Expr)
  /-- A question with its answer outside of a conditional, which has no value. -/
  | branch (question answer : Expr)
  /-- Questions with their answers, of which the first true one counts. -/
  | cond (branches : List (Expr × Expr))
  | lambda (params : List String) (body : Expr)
  | app (func : Expr) (args : List Expr)
  /-- The empty list, which has a value only as quoted data. -/
  | empty

namespace Expr

mutual

/-- Equality of expressions, decided part by part. -/
def decEq (a b : Expr) : Decidable (a = b) :=
  if h : a.ctorIdx = b.ctorIdx then
    match a, b, h with
    | .literal s, .literal t, _ => decidable_of_iff (s = t) (by simp)
    | .identifier s, .identifier t, _ => decidable_of_iff (s = t) (by simp)
    | .quote d, .quote e, _ =>
      have := decEq d e
      decidable_of_iff (d = e) (by simp)
    | .branch q a, .branch r b, _ =>
      have := decEq q r
      have := decEq a b
      decidable_of_iff (q = r ∧ a = b) (by simp)
    | .cond s, .cond t, _ =>
      have := decEqBranches s t
      decidable_of_iff (s = t) (by simp)
    | .lambda ps d, .lambda qs e, _ =>
      have := decEq d e
      decidable_of_iff (ps = qs ∧ d = e) (by simp)
    | .app f s, .app g t, _ =>
      have := decEq f g
      have := decEqArgs s t
      decidable_of_iff (f = g ∧ s = t) (by simp)
    | .empty, .empty, _ => isTrue rfl
  else isFalse fun e => h (e ▸ rfl)

/-- Equality of the branches of conditionals. -/
def decEqBranches : (s t : List (Expr × Expr)) → Decidable (s = t)
  | [], [] => isTrue rfl
  | [], _ :: _ | _ :: _, [] => isFalse (by simp)
  | (q, a) :: s, (r, b) :: t =>
    have := decEq q r
    have := decEq a b
    have := decEqBranches s t
    decidable_of_iff ((q = r ∧ a = b) ∧ s = t) (by simp)

/-- Equality of argument lists. -/
def decEqArgs : (s t : List Expr) → Decidable (s = t)
  | [], [] => isTrue rfl
  | [], _ :: _ | _ :: _, [] => isFalse (by simp)
  | a :: s, b :: t =>
    have := decEq a b
    have := decEqArgs s t
    decidable_of_iff (a = b ∧ s = t) (by simp)

end

instance : DecidableEq Expr := decEq

/-- Induction with one hypothesis for all branches of a conditional, and one for all arguments. -/
@[induction_eliminator]
theorem induct {motive : Expr → Prop}
    (literal : ∀ text, motive (.literal text))
    (identifier : ∀ name, motive (.identifier name))
    (quote : ∀ datum, motive datum → motive (.quote datum))
    (branch : ∀ question answer, motive question → motive answer →
      motive (.branch question answer))
    (cond : ∀ branches : List (Expr × Expr), (∀ b ∈ branches, motive b.1 ∧ motive b.2) →
      motive (.cond branches))
    (lambda : ∀ params body, motive body → motive (.lambda params body))
    (app : ∀ func args, motive func → (∀ a ∈ args, motive a) → motive (.app func args))
    (empty : motive .empty) (e : Expr) : motive e :=
  Expr.rec (motive_1 := motive) (motive_2 := fun bs => ∀ b ∈ bs, motive b.1 ∧ motive b.2)
    (motive_3 := fun as => ∀ a ∈ as, motive a) (motive_4 := fun b => motive b.1 ∧ motive b.2)
    literal identifier quote branch cond lambda app empty
    (by simp) (by simp +contextual) (by simp) (by simp +contextual) (fun _ _ => And.intro) e

end Expr

end MiniLisp
