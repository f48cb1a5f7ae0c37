import MiniLisp.Eval
import MiniLisp.Expr.Builder
import MiniLisp.SExpr.Reader
import MiniLisp.Text.Excerpt

/-!
The interpreter: reads, builds and evaluates a program text in a fixed environment and with a limited
number of frames, and logs each stage that it completes. A run that uses up its frames fails as too
deep. The log of a run is the data of its lines.
-/

namespace MiniLisp

/-! ## Log -/

/-- A line of the log of a run. -/
inductive Event where
  | tokenized (chars tokens : Nat)
  | parsed (nodes : Nat)
  | read (node : SExpr)
  | built (e : Expr)
  | returned (shown : String)
  | failed (excerpt message : String)
  | exhausted (excerpt : String)

/-- The parts of the interpreter that write to the log. -/
inductive Stage where
  | lexer
  | parser
  | interpreter
  deriving DecidableEq, Repr

namespace Event

/-- The part that writes the line. -/
def stage : Event → Stage
  | .tokenized _ _ => .lexer
  | .parsed _ => .parser
  | _ => .interpreter

/-- The text of the line. -/
def message : Event → String
  | .tokenized chars tokens =>
    "tokenized " ++ Numeral.natText chars ++ " chars into " ++ Numeral.natText tokens ++ " tokens"
  | .parsed nodes => "parsed " ++ Numeral.natText nodes ++ " top-level element(s)"
  | .read node => "structure: " ++ node.debugForm
  | .built e => "ast: " ++ e.source
  | .returned shown => "result: " ++ shown
  | .failed excerpt message => "evaluation of " ++ excerpt ++ " failed: " ++ message
  | .exhausted excerpt => "evaluation of " ++ excerpt ++ " exhausted the stack"

end Event

/-- The log of a run so far, and the next free cell. -/
structure Progress where
  events : List Event
  nextCell : Nat

/-- A computation that logs. -/
abbrev RunM := EStateM Fault Progress

namespace RunM

instance : MonadLift EvalM RunM where
  monadLift act p :=
    match act p.nextCell with
    | .ok a next => .ok a ⟨p.events, next⟩
    | .error fault next => .error fault ⟨p.events, next⟩

/-- Adds a line to the log. -/
def log (event : Event) : RunM Unit :=
  modify fun p => ⟨p.events ++ [event], p.nextCell⟩

/-- Reads the one expression of a text. -/
def read (code : String) : RunM SExpr := do
  let tokens := Token.ofText code
  log (.tokenized code.length tokens.length)
  let nodes ← SExpr.ofTokens tokens
  log (.parsed nodes.length)
  let node ← SExpr.single nodes
  log (.read node)
  pure node

/-- Reads and builds the expression of a text. -/
def build (room : Headroom) (code : String) : RunM Expr := do
  let node ← read code
  let e ← Expr.build room node
  log (.built e)
  pure e

/-- Reads, builds and evaluates a text. A result without a text is not logged. -/
def eval (frames : Nat) (env : Environment) (code : String) : RunM Value := do
  let e ← build (.frames frames) code
  let v ← MiniLisp.eval frames e env
  match v.debugForm with
  | .ok shown => log (.returned shown)
  | .error _ => pure ()
  pure v

end RunM

/-! ## Interpreters -/

/-- An interpreter: the environment of its programs, and its recursion limit. -/
structure Interpreter where
  env : Environment
  maxRecursion : Int

namespace Interpreter

/-- The fewest frames that a run has, whatever the recursion limit. -/
def leastFrames : Nat := 1000

/-- The frames that a run has. -/
def frames (interp : Interpreter) : Nat :=
  max leastFrames interp.maxRecursion.toNat

/-- The interpreter with one frame of bindings. Without a recursion limit of its own, or with zero
for one, it has the configured limit. -/
def new (bindings : List (String × Value)) (maxRecursion : Option Int) (configured : Nat) :
    Interpreter where
  env := Environment.ofBindings bindings
  maxRecursion :=
    match maxRecursion with
    | none | some 0 => configured
    | some limit => limit

/-- The excerpt of a text in messages. -/
def excerpt (code : String) : String :=
  Text.excerpt code Text.excerptWidth

/-- Runs a text: its log and its result. A failure adds one line to the log, except for numbers with
too many digits. -/
def trace (interp : Interpreter) (code : String) : StateM Nat (List Event × Except Fault Value) :=
  fun next =>
    match RunM.eval interp.frames interp.env code ⟨[], next⟩ with
    | .ok v p => ((p.events, .ok v), p.nextCell)
    | .error fault p =>
      match fault with
      | .outOfFrames =>
        ((p.events ++ [.exhausted (excerpt code)], .error (.tooDeep (excerpt code))), p.nextCell)
      | .digits limit => ((p.events, .error (.digits limit)), p.nextCell)
      | fault =>
        ((p.events ++ [.failed (excerpt code) fault.message], .error fault), p.nextCell)

/-- Runs a text. -/
def eval (interp : Interpreter) (code : String) : StateM Nat (Except Fault Value) :=
  Prod.snd <$> interp.trace code

end Interpreter

end MiniLisp
