import MiniLisp.Datum
import MiniLisp.Environment
import MiniLisp.Value.Equality

/-!
Evaluation. An expression is evaluated in an environment, with a number of frames for nested calls
and a counter of the cells in which pairs and closures are made. Names mean what the environment of
the expression says, closures run in the environment that they captured, and an application
evaluates its head, then its arguments from left to right, and only then looks at what it applies.
-/

namespace MiniLisp

/-- A computation that makes pairs and closures in new cells. The state is the next free cell, and
cells stay used when the computation fails. -/
abbrev EvalM := EStateM Fault Nat

namespace EvalM

/-- A new cell. -/
def freshCell : EvalM Nat :=
  modifyGet fun next => (next, next + 1)

/-- The value of a datum, with its pairs in new cells. -/
def place (d : Datum) : EvalM Value :=
  modifyGet d.place

end EvalM

/-! ## Values in messages -/

namespace Value

/-- The debugging form of a value, written with that many frames. -/
def debugFormIn (frames : Nat) (v : Value) : Except Fault String :=
  if v.debugFrames ≤ frames then Fault.ofDigits v.debugForm else .error .outOfFrames

/-- The text of a value, written with that many frames. -/
def sourceIn (frames : Nat) (v : Value) : Except Fault String :=
  if v.sourceFrames ≤ frames then Fault.ofDigits v.source else .error .outOfFrames

end Value

/-! ## Primitives -/

namespace Primitive

/-- The integer that the operation needs. -/
def number (op : Primitive) (frames : Nat) : Value → Except Fault Int
  | .int n => .ok n
  | v => do
    let shown ← v.debugFormIn frames
    .error (.notNumber op shown)

/-- Calls an operation with that many frames, for a comparison or for a message. The number of
arguments is checked before any of them is looked at. -/
def call (frames : Nat) (op : Primitive) (args : List Value) : EvalM Value :=
  match op, args with
  | .cons, [head, tail] => do
    let cell ← EvalM.freshCell
    pure (.pair cell head tail)
  | .cdr, [.pair _ _ tail] => pure tail
  | .cdr, [v] => do
    let shown ← v.debugFormIn frames
    throw (.notPair shown)
  | .isNull, [v] => pure (.bool v.isNil)
  | .eq, [a, b] =>
    if a.comparisonFrames b ≤ frames then pure (.bool (a.isEqualShared b)) else throw .outOfFrames
  | .isAtom, [v] => pure (.bool !v.isPair)
  | .isZero, [v] => do
    let n ← op.number frames v
    pure (.bool (n == 0))
  | .incr, [v] => do
    let n ← op.number frames v
    pure (.int (n + 1))
  | .decr, [v] => do
    let n ← op.number frames v
    pure (.int (n - 1))
  | .isNumber, [v] => pure (.bool v.isNumber)
  | _, _ => throw (.arity op.name op.arity args.length)

/-- Calls an operation that has to be one of those in the table. -/
def callIn (table : List Primitive) (frames : Nat) (op : Primitive) (args : List Value) :
    EvalM Value :=
  if op ∈ table then op.call frames args else throw (.unknownPrimitive op)

end Primitive

/-! ## Names -/

namespace Environment

/-- The value of an atom: what the environment binds it to, else the integer, the boolean or the
primitive that it spells. -/
def resolve (env : Environment) (text : String) : Except Fault Value :=
  match env.get? text with
  | some v => .ok v
  | none => do
    match ← Fault.ofDigits (Numeral.read text) with
    | some n => .ok (.int n)
    | none =>
      if text = trueWord ∨ text = elseWord then .ok (.bool true)
      else if text = falseWord then .ok (.bool false)
      else match Primitive.named? text with
        | some op => .ok (.primitive op)
        | none => .error (.unbound text)

/-- The value that the environment binds to a name. -/
def lookup (env : Environment) (name : String) : Except Fault Value :=
  match env.get? name with
  | some v => .ok v
  | none => .error (.unbound name)

/-- The environment in which the body of a closure runs: its parameters with the arguments, in
front of what it captured. -/
def bindArgs (env : Environment) (params : List String) (args : List Value) :
    Except Fault Environment :=
  if args.length = params.length then .ok (env.extend (params.zip args))
  else .error (.arity (Value.closureSource params) params.length args.length)

end Environment

/-! ## Expressions -/

namespace EvalM

/-- Fails since no question of a conditional is true. -/
def noTrueQuestion (frames : Nat) (branches : List (Expr × Expr)) : EvalM Value := fun next =>
  let conditional := Expr.cond branches
  .error ((Headroom.frames frames).report conditional.sourceFrames (.noTrueQuestion conditional)) next

/-- Fails since an expression has no value. -/
def unevaluable (frames : Nat) (e : Expr) : EvalM Value := fun next =>
  .error ((Headroom.frames frames).report e.debugFrames (.unevaluable e)) next

end EvalM

mutual

/-- Evaluates an expression. The head of an application takes one frame, other parts take two, and
the body of a closure takes three. -/
def eval : (frames : Nat) → Expr → Environment → EvalM Value
  | 0, _, _ => throw .outOfFrames
  | frames + 1, e, env =>
    match e with
    | .literal text => env.resolve text
    | .identifier name => env.lookup name
    | .quote d => do
      let found ← d.datum (.frames (frames - 1))
      EvalM.place found
    | .cond branches =>
      branches.foldr
        (fun (question, answer) others => do
          match ← evalPart frames question env with
          | .bool true => evalPart frames answer env
          | _ => others)
        (EvalM.noTrueQuestion frames branches)
    | .lambda params body => do
      let cell ← EvalM.freshCell
      pure (.closure cell params body env)
    | .app func args => do
      let head ← eval frames func env
      let values ← args.mapM fun arg => evalPart frames arg env
      apply frames head values
    | .empty => throw .emptyEvaluated
    | .branch question answer => EvalM.unevaluable frames (.branch question answer)

/-- Evaluates an expression one frame further down. -/
def evalPart : (frames : Nat) → Expr → Environment → EvalM Value
  | 0, _, _ => throw .outOfFrames
  | frames + 1, e, env => eval frames e env

/-- Applies a value to arguments. -/
def apply : (frames : Nat) → Value → List Value → EvalM Value
  | 0, _, _ => throw .outOfFrames
  | frames + 1, callee, args =>
    match callee with
    | .primitive op => op.call frames args
    | .closure _ params body env => do
      let scope ← Environment.bindArgs env params args
      evalPart frames body scope
    | other => do
      let shown ← other.sourceIn frames
      throw (.uncallable shown)

end

/-- The frames of an evaluation outside of an interpreter: as many as such uses ever need. -/
def ampleFrames : Nat := 1000000

end MiniLisp
