import MiniLisp.Token

/-!
S-expressions: the bracket structure of a program before any of it has a meaning. An atom keeps its
text, and a list its elements in order.
-/

namespace MiniLisp

/-- The bracket structure of one expression. -/
inductive SExpr where
  | atom (text : String)
  | list (items : List SExpr)

namespace SExpr

mutual

/-- Equality of S-expressions, decided part by part. -/
def decEq : (a b : SExpr) → Decidable (a = b)
  | .atom s, .atom t => decidable_of_iff (s = t) (by simp)
  | .list s, .list t =>
    have := decEqItems s t
    decidable_of_iff (s = t) (by simp)
  | .atom _, .list _ | .list _, .atom _ => isFalse (by simp)

/-- Equality of element lists. -/
def decEqItems : (s t : List SExpr) → Decidable (s = t)
  | [], [] => isTrue rfl
  | [], _ :: _ | _ :: _, [] => isFalse (by simp)
  | a :: s, b :: t =>
    have := decEq a b
    have := decEqItems s t
    decidable_of_iff (a = b ∧ s = t) (by simp)

end

instance : DecidableEq SExpr := decEq

/-- Induction with one hypothesis for all elements of a list. -/
@[induction_eliminator]
theorem induct {motive : SExpr → Prop} (atom : ∀ text, motive (.atom text))
    (list : ∀ items, (∀ item ∈ items, motive item) → motive (.list items)) (node : SExpr) :
    motive node :=
  SExpr.rec (motive_1 := motive) (motive_2 := fun items => ∀ item ∈ items, motive item)
    atom list (by simp) (by simp +contextual) node

mutual

/-- The tokens that write an S-expression: a list stands between brackets, an atom for itself. -/
def tokens : SExpr → List Token
  | .atom text => [text]
  | .list items => Token.opening :: (tokensOf items ++ [Token.closing])

/-- The tokens that write several S-expressions one after the other. -/
def tokensOf : List SExpr → List Token
  | [] => []
  | item :: items => item.tokens ++ tokensOf items

end

@[simp] theorem tokens_atom (text : String) : (SExpr.atom text).tokens = [text] := by
  rw [tokens]

@[simp] theorem tokens_list (items : List SExpr) :
    (SExpr.list items).tokens = Token.opening :: (tokensOf items ++ [Token.closing]) := by
  rw [tokens]

@[simp] theorem tokensOf_nil : tokensOf [] = [] := by
  rw [tokensOf]

@[simp] theorem tokensOf_cons (item : SExpr) (items : List SExpr) :
    tokensOf (item :: items) = item.tokens ++ tokensOf items := by
  rw [tokensOf]

@[simp] theorem tokensOf_append (ns ms : List SExpr) :
    tokensOf (ns ++ ms) = tokensOf ns ++ tokensOf ms := by
  induction ns with
  | nil => simp
  | cons n ns ih => simp [ih]

mutual

/-- How many frames it takes to visit an S-expression as quoted data: one for each step to the head
of a list, and two for each step to another element. -/
def quotedFrames : SExpr → Nat
  | .atom _ => 1
  | .list [] => 1
  | .list (head :: rest) => 1 + max head.quotedFrames (1 + quotedFramesOf rest)

/-- The most frames that one of the elements takes. -/
def quotedFramesOf : List SExpr → Nat
  | [] => 0
  | item :: items => max item.quotedFrames (quotedFramesOf items)

end

end SExpr

end MiniLisp
