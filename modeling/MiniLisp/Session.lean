import MiniLisp.Interpreter
import MiniLisp.Source
import MiniLisp.Value.Shown

/-!
Sessions: several uses of one interpreter, one after the other. A step may stop after any stage.
Nothing but the counter of cells passes from one step to the next.
-/

namespace MiniLisp

namespace Session

/-- A use of the interpreter, by the stage that it stops after. -/
inductive Step where
  | tokenize (code : String)
  | read (code : String)
  | build (code : String)
  | eval (code : String)

/-- What a step answers. -/
inductive Answer where
  | tokens (ts : List Token)
  | node (n : SExpr)
  | expr (e : Expr)
  | value (v : ShownValue)

/-- The answer of a step, and the environment of the interpreter in its debugging form. -/
structure Report where
  answer : Except Fault Answer
  env : Except DigitLimit String

end Session

namespace Interpreter

open Session

/-- The answer of one step. -/
def answer (interp : Interpreter) : Step → StateM Nat (Except Fault Answer)
  | .tokenize code => pure (.ok (.tokens (Token.ofText code)))
  | .read code => pure (.node <$> (Source.text code).read)
  | .build code => pure (.expr <$> (Source.text code).build)
  | .eval code => do
    let result ← interp.eval code
    pure do
      let v ← result
      .value <$> Fault.ofDigits v.shown

/-- Takes one step. -/
def step (interp : Interpreter) (s : Step) : StateM Nat Report := do
  let answer ← interp.answer s
  pure ⟨answer, interp.env.debugForm⟩

/-- Takes several steps, whether or not earlier ones fail. -/
def session (interp : Interpreter) (steps : List Step) : StateM Nat (List Report) :=
  steps.mapM interp.step

end Interpreter

end MiniLisp
