import MiniLisp.Environment

/-!
What a program's user sees of a value: its kind and its two texts, and of a closure also its parts.
Cells are not seen.
-/

namespace MiniLisp

/-- The kinds of values. -/
inductive Value.Kind where
  | int
  | bool
  | symbol
  | text
  | nil
  | pair
  | primitive
  | closure
  deriving DecidableEq, Repr

/-- What is seen of the parts of a closure: its parameters, the source of its body, and the debugging
form of the environment that it captured. -/
structure ShownClosure where
  params : List String
  body : String
  env : String
  deriving DecidableEq, Repr

/-- What is seen of a value. -/
structure ShownValue where
  kind : Value.Kind
  source : String
  debugForm : String
  closure : Option ShownClosure
  deriving DecidableEq, Repr

namespace Value

/-- The kind of a value. -/
def kind : Value → Kind
  | .int _ => .int
  | .bool _ => .bool
  | .symbol _ => .symbol
  | .text _ => .text
  | .nil => .nil
  | .pair _ _ _ => .pair
  | .primitive _ => .primitive
  | .closure _ _ _ _ => .closure

/-- What is seen of the parts of a value that is a closure. -/
def shownClosure : Value → Except DigitLimit (Option ShownClosure)
  | .closure _ params body env => do
    let chain ← Environment.debugForm env
    .ok (some ⟨params, body.source, chain⟩)
  | _ => .ok none

/-- What is seen of a value. -/
def shown (v : Value) : Except DigitLimit ShownValue := do
  let source ← v.source
  let debugForm ← v.debugForm
  let closure ← v.shownClosure
  .ok ⟨v.kind, source, debugForm, closure⟩

end Value

end MiniLisp
