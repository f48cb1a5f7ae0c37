import MiniLisp.Expr.Basic
import MiniLisp.Primitive

/-!
Runtime values, and the environments that closures capture. Pairs and closures carry the number of
the cell in which they were made. Two closures are the same exactly if they were made in the same
cell. Pairs are compared by their parts; their cells only tell how much work a comparison is.
-/

namespace MiniLisp

/-- A runtime value. -/
inductive Value where
  | int (n : Int)
  | bool (b : Bool)
  | symbol (name : String)
  /-- A text of the host program, which is no symbol. -/
  | text (s : String)
  /-- The empty list. -/
  | nil
  | pair (cell : Nat) (head tail : Value)
  | primitive (op : Primitive)
  /-- A lambda with the frames around it, innermost first. -/
  | closure (cell : Nat) (params : List String) (body : Expr)
      (env : List (List (String × Value)))

/-- The bindings of one scope, in order. -/
abbrev Frame := List (String × Value)

/-- The frames that a name is looked up in, innermost first. -/
abbrev Environment := List Frame

namespace Value

/-- Induction with one hypothesis for all values that a closure's environment binds. -/
@[induction_eliminator]
theorem induct {motive : Value → Prop}
    (int : ∀ n, motive (.int n))
    (bool : ∀ b, motive (.bool b))
    (symbol : ∀ name, motive (.symbol name))
    (text : ∀ s, motive (.text s))
    (nil : motive .nil)
    (pair : ∀ cell head tail, motive head → motive tail → motive (.pair cell head tail))
    (primitive : ∀ op, motive (.primitive op))
    (closure : ∀ cell params body (env : Environment),
      (∀ frame ∈ env, ∀ binding ∈ frame, motive binding.2) →
        motive (.closure cell params body env))
    (v : Value) : motive v :=
  Value.rec (motive_1 := motive)
    (motive_2 := fun env => ∀ frame ∈ env, ∀ binding ∈ frame, motive binding.2)
    (motive_3 := fun frame => ∀ binding ∈ frame, motive binding.2)
    (motive_4 := fun binding => motive binding.2)
    int bool symbol text nil pair primitive closure
    (fun _ h => nomatch h) (fun _ _ h t => List.forall_mem_cons.2 ⟨h, t⟩)
    (fun _ h => nomatch h) (fun _ _ h t => List.forall_mem_cons.2 ⟨h, t⟩)
    (fun _ _ h => h) v

/-- Whether the value is a pair. -/
def isPair : Value → Bool
  | .pair _ _ _ => true
  | _ => false

/-- Whether the value is the empty list. -/
def isNil : Value → Bool
  | .nil => true
  | _ => false

/-- Whether the value is an integer; a boolean is none. -/
def isNumber : Value → Bool
  | .int _ => true
  | _ => false

/-- The heads along a chain of pairs. -/
def heads : Value → List Value
  | .pair _ head tail => head :: tail.heads
  | _ => []

end Value

end MiniLisp
