import MiniLisp.Expr.Printer
import MiniLisp.Numeral
import MiniLisp.Primitive
import MiniLisp.SExpr.Printer

/-!
What can go wrong: each cause with the parts that its message shows, the kind it belongs to, and the
message itself. Values appear by their text, since what can be said of a value is all that counts.
-/

namespace MiniLisp

/-- A reason why a step has no result. -/
inductive Fault where
  /-- The closing bracket at this token has no opening one. -/
  | unmatchedClosing (position : Nat)
  /-- The opening bracket at this token has no closing one. -/
  | unmatchedOpening (position : Nat)
  | noExpression
  | severalExpressions (count : Nat)
  | emptyApplication
  | quoteShape
  | lambdaShape
  | lambdaParams (found : SExpr)
  | lambdaParam (found : SExpr)
  | duplicateParam (params : List SExpr)
  | condClause (found : SExpr)
  | emptyEvaluated
  | unquotable (found : Expr)
  | unevaluable (found : Expr)
  | unbound (name : String)
  | notNumber (op : Primitive) (shown : String)
  | notPair (shown : String)
  | arity (callee : String) (expected given : Nat)
  | uncallable (shown : String)
  /-- No question of the conditional is true. -/
  | noTrueQuestion (conditional : Expr)
  | unknownPrimitive (op : Primitive)
  /-- A number or numeral has too many digits. -/
  | digits (limit : DigitLimit)
  /-- The frames have run out. -/
  | outOfFrames
  /-- A run has run out of frames; the program by its excerpt. -/
  | tooDeep (excerpt : String)
  /-- A frame of an environment cannot be changed. -/
  | frozenFrame

/-- The kinds of faults that a program can tell apart. -/
inductive FaultKind where
  | structural
  | build
  | unbound
  | type
  | arity
  | uncallable
  | noTrueQuestion
  | unknownPrimitive
  | depth
  | digits
  | frozen
  | unevaluable
  deriving DecidableEq, Repr

namespace Fault

/-- The kind of a fault. -/
def kind : Fault → FaultKind
  | .unmatchedClosing _ | .unmatchedOpening _ | .noExpression | .severalExpressions _ => .structural
  | .emptyApplication | .quoteShape | .lambdaShape | .lambdaParams _ | .lambdaParam _
  | .duplicateParam _ | .condClause _ | .emptyEvaluated | .unquotable _ => .build
  | .unevaluable _ => .unevaluable
  | .unbound _ => .unbound
  | .notNumber _ _ | .notPair _ => .type
  | .arity _ _ _ => .arity
  | .uncallable _ => .uncallable
  | .noTrueQuestion _ => .noTrueQuestion
  | .unknownPrimitive _ => .unknownPrimitive
  | .digits _ => .digits
  | .outOfFrames | .tooDeep _ => .depth
  | .frozenFrame => .frozen

/-- The message of a fault. -/
def message : Fault → String
  | .unmatchedClosing position => "Unmatched ')' at token " ++ Numeral.natText position
  | .unmatchedOpening position => "Unmatched '(' at token " ++ Numeral.natText position
  | .noExpression => "Empty input: expected one expression"
  | .severalExpressions count =>
    "Expected one top-level expression, found " ++ Numeral.natText count
  | .emptyApplication => "Empty application: ()"
  | .quoteShape => "quote expects exactly 1 argument"
  | .lambdaShape => "lambda expects a parameter list and exactly 1 body expression"
  | .lambdaParams found => "lambda parameters must be a list, got " ++ found.debugForm
  | .lambdaParam found => "lambda parameter must be a name, got " ++ found.debugForm
  | .duplicateParam params => "Duplicate lambda parameter in " ++ (SExpr.list params).debugForm
  | .condClause found => "cond clause must be (question answer), got " ++ found.debugForm
  | .emptyEvaluated => "() is only valid as quoted data"
  | .unquotable found => "Cannot quote " ++ found.debugForm
  | .unevaluable found => "Cannot evaluate " ++ found.debugForm
  | .unbound name => "Unbound identifier: " ++ name
  | .notNumber op shown => op.name ++ " expects a number, got " ++ shown
  | .notPair shown => Primitive.cdr.name ++ " expects a pair, got " ++ shown
  | .arity callee expected given =>
    callee ++ " expects " ++ Numeral.natText expected ++ " argument(s), got " ++
      Numeral.natText given
  | .uncallable shown => "Cannot apply non-function " ++ shown
  | .noTrueQuestion conditional => "No true question in " ++ conditional.source
  | .unknownPrimitive op => "Unknown primitive: " ++ op.name
  | .digits limit => limit.message
  | .outOfFrames => "Out of frames"
  | .tooDeep excerpt => "Recursion too deep while evaluating " ++ excerpt
  | .frozenFrame => "'mappingproxy' object does not support item assignment"

/-- A step on numbers as a step that may have any fault. -/
def ofDigits {α : Type} : Except DigitLimit α → Except Fault α :=
  Except.mapError .digits

@[simp] theorem ofDigits_ok {α : Type} (a : α) : ofDigits (.ok a) = .ok a := rfl

@[simp] theorem ofDigits_error {α : Type} (limit : DigitLimit) :
    ofDigits (.error limit : Except DigitLimit α) = .error (.digits limit) := rfl

end Fault

/-- A step that may fail is one of any computation that may fail in the same ways. -/
instance {σ : Type} : MonadLift (Except Fault) (EStateM Fault σ) where
  monadLift
    | .ok a => pure a
    | .error fault => throw fault

end MiniLisp
