import MiniLisp.Proofs.Evaluation.Equations
import MiniLisp.Proofs.Evaluation.Names

/-!
The rules of the language, as relations between an expression, an environment and the outcome. They
say nothing of frames: an expression without an outcome is one whose evaluation does not end. Every
rule starts from a counter of cells and leaves another, since pairs and closures are made in new cells.

`Evaluates` holds of expressions, `EvaluatesAll` of the arguments of an application, `Chooses` of the
branches of a conditional that are left, and `Applies` of a callee with its arguments.
-/

namespace MiniLisp

/-! ## Primitive operations -/

/-- What a primitive operation comes to. The number of arguments is looked at before their kinds. -/
inductive Primitive.Yields : Primitive → List Value → Nat → Outcome Value → Prop
  | cons {head tail : Value} {next : Nat} :
      Yields .cons [head, tail] next (.ok (.pair next head tail) (next + 1))
  | cdr {cell : Nat} {head tail : Value} {next : Nat} :
      Yields .cdr [.pair cell head tail] next (.ok tail next)
  | notPair {v : Value} {next : Nat} (h : v.isPair = false) :
      Yields .cdr [v] next (.error (.showing .notPair v.debugForm) next)
  | eq {a b : Value} {next : Nat} : Yields .eq [a, b] next (.ok (.bool (a.isEqual b)) next)
  | test {op : Primitive} {f : Value → Bool} {v : Value} {next : Nat} (h : op.test? = some f) :
      Yields op [v] next (.ok (.bool (f v)) next)
  | number {op : Primitive} {f : Int → Value} {n : Int} {next : Nat} (h : op.ofNumber? = some f) :
      Yields op [.int n] next (.ok (f n) next)
  | notNumber {op : Primitive} {f : Int → Value} {v : Value} {next : Nat}
      (h : op.ofNumber? = some f) (other : v.isNumber = false) :
      Yields op [v] next (.error (.showing (.notNumber op) v.debugForm) next)
  | count {op : Primitive} {args : List Value} {next : Nat} (h : args.length ≠ op.arity) :
      Yields op args next (.error (.arity op.name op.arity args.length) next)

/-! ## Expressions -/

mutual

/-- What an expression comes to in an environment. -/
inductive Evaluates : Expr → Environment → Nat → Outcome Value → Prop
  | literal {text : String} {env : Environment} {next : Nat} {v : Value}
      (h : Resolves env text (.ok v)) : Evaluates (.literal text) env next (.ok v next)
  | literalFails {text : String} {env : Environment} {next : Nat} {fault : Fault}
      (h : Resolves env text (.error fault)) :
      Evaluates (.literal text) env next (.error fault next)
  | identifier {name : String} {env : Environment} {next : Nat} {v : Value}
      (h : Binds env name v) : Evaluates (.identifier name) env next (.ok v next)
  | identifierUnbound {name : String} {env : Environment} {next : Nat} (h : Lacks env name) :
      Evaluates (.identifier name) env next (.error (.unbound name) next)
  | quote {d : Expr} {env : Environment} {next : Nat} {found : Datum}
      (h : d.datum .unlimited = .ok found) :
      Evaluates (.quote d) env next (.ok (found.place next).1 (found.place next).2)
  | quoteFails {d : Expr} {env : Environment} {next : Nat} {fault : Fault}
      (h : d.datum .unlimited = .error fault) : Evaluates (.quote d) env next (.error fault next)
  | cond {branches : List (Expr × Expr)} {env : Environment} {next : Nat} {o : Outcome Value}
      (h : Chooses branches env branches next o) : Evaluates (.cond branches) env next o
  | lambda {params : List String} {body : Expr} {env : Environment} {next : Nat} :
      Evaluates (.lambda params body) env next (.ok (.closure next params body env) (next + 1))
  | headFails {func : Expr} {args : List Expr} {env : Environment} {next m : Nat} {fault : Fault}
      (hfunc : Evaluates func env next (.error fault m)) :
      Evaluates (.app func args) env next (.error fault m)
  | argFails {func : Expr} {args : List Expr} {env : Environment} {next m k : Nat} {head : Value}
      {fault : Fault} (hfunc : Evaluates func env next (.ok head m))
      (hargs : EvaluatesAll args env m (.error fault k)) :
      Evaluates (.app func args) env next (.error fault k)
  | app {func : Expr} {args : List Expr} {env : Environment} {next m k : Nat} {head : Value}
      {values : List Value} {o : Outcome Value} (hfunc : Evaluates func env next (.ok head m))
      (hargs : EvaluatesAll args env m (.ok values k)) (happly : Applies head values k o) :
      Evaluates (.app func args) env next o
  | empty {env : Environment} {next : Nat} :
      Evaluates .empty env next (.error .emptyEvaluated next)
  | branch {question answer : Expr} {env : Environment} {next : Nat} :
      Evaluates (.branch question answer) env next
        (.error (.unevaluable (.branch question answer)) next)

/-- What several expressions come to, from left to right. The first fault is that of all. -/
inductive EvaluatesAll : List Expr → Environment → Nat → Outcome (List Value) → Prop
  | nil {env : Environment} {next : Nat} : EvaluatesAll [] env next (.ok [] next)
  | headFails {e : Expr} {es : List Expr} {env : Environment} {next m : Nat} {fault : Fault}
      (h : Evaluates e env next (.error fault m)) :
      EvaluatesAll (e :: es) env next (.error fault m)
  | tailFails {e : Expr} {es : List Expr} {env : Environment} {next m k : Nat} {v : Value}
      {fault : Fault} (h : Evaluates e env next (.ok v m))
      (hrest : EvaluatesAll es env m (.error fault k)) :
      EvaluatesAll (e :: es) env next (.error fault k)
  | cons {e : Expr} {es : List Expr} {env : Environment} {next m k : Nat} {v : Value}
      {vs : List Value} (h : Evaluates e env next (.ok v m))
      (hrest : EvaluatesAll es env m (.ok vs k)) :
      EvaluatesAll (e :: es) env next (.ok (v :: vs) k)

/-- What a conditional comes to when the branches in the third place are left of it. Only boolean true
selects a branch, and nothing after the selected answer is evaluated. -/
inductive Chooses : List (Expr × Expr) → Environment → List (Expr × Expr) → Nat → Outcome Value → Prop
  | exhausted {whole : List (Expr × Expr)} {env : Environment} {next : Nat} :
      Chooses whole env [] next (.error (.noTrueQuestion (.cond whole)) next)
  | questionFails {whole rest : List (Expr × Expr)} {env : Environment} {question answer : Expr}
      {next m : Nat} {fault : Fault} (h : Evaluates question env next (.error fault m)) :
      Chooses whole env ((question, answer) :: rest) next (.error fault m)
  | selected {whole rest : List (Expr × Expr)} {env : Environment} {question answer : Expr}
      {next m : Nat} {o : Outcome Value} (h : Evaluates question env next (.ok (.bool true) m))
      (hanswer : Evaluates answer env m o) :
      Chooses whole env ((question, answer) :: rest) next o
  | passed {whole rest : List (Expr × Expr)} {env : Environment} {question answer : Expr}
      {next m : Nat} {v : Value} {o : Outcome Value} (h : Evaluates question env next (.ok v m))
      (other : v ≠ .bool true) (hrest : Chooses whole env rest m o) :
      Chooses whole env ((question, answer) :: rest) next o

/-- What applying a value to arguments comes to. The body of a closure runs in the environment that the
closure captured, with one frame for its parameters in front. -/
inductive Applies : Value → List Value → Nat → Outcome Value → Prop
  | primitive {op : Primitive} {args : List Value} {next : Nat} {o : Outcome Value}
      (h : op.Yields args next o) : Applies (.primitive op) args next o
  | closure {cell : Nat} {params : List String} {body : Expr} {env : Environment}
      {args : List Value} {next : Nat} {o : Outcome Value} (count : args.length = params.length)
      (h : Evaluates body (env.extend (params.zip args)) next o) :
      Applies (.closure cell params body env) args next o
  | closureCount {cell : Nat} {params : List String} {body : Expr} {env : Environment}
      {args : List Value} {next : Nat} (count : args.length ≠ params.length) :
      Applies (.closure cell params body env) args next
        (.error (.arity (Value.closureSource params) params.length args.length) next)
  | uncallable {callee : Value} {args : List Value} {next : Nat} (h : callee.isCallable = false) :
      Applies callee args next (.error (.showing .uncallable callee.source) next)

end

/-! ## Atoms, arguments and operations -/

theorem Evaluates.of_get? {name : String} {env : Environment} {next : Nat} {v : Value}
    (h : env.get? name = some v) : Evaluates (.literal name) env next (.ok v next) :=
  .literal (.bound (binds_iff.2 h))

theorem EvaluatesAll.one {e : Expr} {env : Environment} {next m : Nat} {v : Value}
    (h : Evaluates e env next (.ok v m)) : EvaluatesAll [e] env next (.ok [v] m) :=
  .cons h .nil

theorem EvaluatesAll.two {e e' : Expr} {env : Environment} {next m k : Nat} {v v' : Value}
    (h : Evaluates e env next (.ok v m)) (h' : Evaluates e' env m (.ok v' k)) :
    EvaluatesAll [e, e'] env next (.ok [v, v'] k) :=
  .cons h (.one h')

/-- An operation on the number that a name is bound to, where the name of the operation is not bound. -/
theorem Evaluates.of_number (op : Primitive) {name : String} {env : Environment} {next : Nat} {n : Int}
    {v : Value} (hop : env.get? op.name = none) (hname : env.get? name = some (.int n))
    (hv : op.ofNumber?.map (fun f => f n) = some v) :
    Evaluates (.app (.literal op.name) [.literal name]) env next (.ok v next) := by
  obtain ⟨f, hf, rfl⟩ := Option.map_eq_some_iff.1 hv
  have hread : Numeral.read op.name = .ok none := by cases op <;> rfl
  have hhead : Evaluates (.literal op.name) env next (.ok (.primitive op) next) :=
    .literal (.primitive ⟨lacks_iff.2 hop, hread⟩ rfl)
  exact .app hhead (.one (.of_get? hname)) (.primitive (.number hf))

end MiniLisp
