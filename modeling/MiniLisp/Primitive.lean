/-!
The built-in operations: a closed set, each with the name by which programs call it, the label by
which debugging forms show it, and the number of its arguments.
-/

namespace MiniLisp

/-- A built-in operation. -/
inductive Primitive where
  | cons
  | cdr
  | isNull
  | eq
  | isAtom
  | isZero
  | incr
  | decr
  | isNumber
  deriving DecidableEq, Repr

namespace Primitive

/-- All built-in operations. -/
def all : List Primitive :=
  [.cons, .cdr, .isNull, .eq, .isAtom, .isZero, .incr, .decr, .isNumber]

/-- The name in programs. -/
def name : Primitive → String
  | .cons => "cons"
  | .cdr => "cdr"
  | .isNull => "null?"
  | .eq => "eq?"
  | .isAtom => "atom?"
  | .isZero => "zero?"
  | .incr => "incr"
  | .decr => "decr"
  | .isNumber => "number?"

/-- The label in debugging forms. -/
def label : Primitive → String
  | .cons => "CONS"
  | .cdr => "CDR"
  | .isNull => "IS_NULL"
  | .eq => "EQ"
  | .isAtom => "IS_ATOM"
  | .isZero => "IS_ZERO"
  | .incr => "INCR"
  | .decr => "DECR"
  | .isNumber => "IS_NUMBER"

/-- How many arguments the operation takes. -/
def arity : Primitive → Nat
  | .cons | .eq => 2
  | _ => 1

/-- The operation of that name. -/
def named? (name : String) : Option Primitive :=
  all.find? fun p => p.name == name

/-- The text of an operation where values are printed. -/
def source (p : Primitive) : String :=
  "#<primitive " ++ p.name ++ ">"

/-- The debugging form of an operation. -/
def debugForm (p : Primitive) : String :=
  "<Primitive." ++ p.label ++ ": '" ++ p.name ++ "'>"

theorem mem_all (p : Primitive) : p ∈ all := by
  cases p <;> decide

theorem named?_name (p : Primitive) : named? p.name = some p := by
  cases p <;> decide

theorem name_injective {p q : Primitive} (h : p.name = q.name) : p = q :=
  Option.some.inj (by rw [← named?_name p, ← named?_name q, h])

theorem named?_eq_some_iff {s : String} {p : Primitive} : named? s = some p ↔ p.name = s := by
  constructor
  · intro h
    simpa using List.find?_some h
  · rintro rfl
    exact named?_name p

end Primitive

end MiniLisp
