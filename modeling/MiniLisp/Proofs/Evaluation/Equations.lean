import MiniLisp.Proofs.Evaluation.Computation

/-!
The equations of evaluation, one for each kind of expression, of callee and of primitive operation.
Later proofs use these and do not open the evaluator.
-/

namespace MiniLisp

/-! ## Messages -/

/-- The fault that shows a text, or that the text cannot be written. -/
def Fault.showing (fault : String → Fault) : Except DigitLimit String → Fault
  | .ok shown => fault shown
  | .error limit => .digits limit

theorem Headroom.report_of_le {needed frames : Nat} (h : needed ≤ frames) (fault : Fault) :
    (Headroom.frames frames).report needed fault = fault := by
  rw [report, holds_frames, if_pos (decide_eq_true h)]

theorem Headroom.report_of_lt {needed frames : Nat} (h : frames < needed) (fault : Fault) :
    (Headroom.frames frames).report needed fault = .outOfFrames := by
  rw [report, holds_frames, if_neg (by rw [decide_eq_true_eq]; omega)]

theorem EvalM.throw_shown {α : Type} (frames needed : Nat) (text : Except DigitLimit String)
    (fault : String → Fault) :
    (do
      let shown ← liftM (if needed ≤ frames then Fault.ofDigits text else .error .outOfFrames)
      throw (fault shown) : EvalM α) =
      throw ((Headroom.frames frames).report needed (.showing fault text)) := by
  by_cases h : needed ≤ frames
  · rw [if_pos h, Headroom.report_of_le h]
    cases text <;> rfl
  · rw [if_neg h, Headroom.report_of_lt (Nat.lt_of_not_le h)]
    rfl

/-! ## Expressions -/

/-- Whether a value is boolean true, which alone selects a branch. -/
def Value.isTrue : Value → Bool
  | .bool true => true
  | _ => false

theorem Value.isTrue_iff {v : Value} : v.isTrue = true ↔ v = .bool true := by
  constructor
  · intro h
    cases v with
    | bool b => cases b with
      | true => rfl
      | false => cases h
    | _ => cases h
  · rintro rfl
    rfl

/-- Whether a value can be applied to arguments. -/
def Value.isCallable : Value → Bool
  | .primitive _ | .closure _ _ _ _ => true
  | _ => false

/-- Evaluates the branches of a conditional that are left. -/
def evalBranches (frames : Nat) (whole : List (Expr × Expr)) (env : Environment) :
    List (Expr × Expr) → EvalM Value
  | [] => EvalM.noTrueQuestion frames whole
  | (question, answer) :: rest => do
    let v ← evalPart frames question env
    if v.isTrue then evalPart frames answer env else evalBranches frames whole env rest

theorem evalBranches_nil (frames : Nat) (whole : List (Expr × Expr)) (env : Environment) :
    evalBranches frames whole env [] =
      throw ((Headroom.frames frames).report (Expr.cond whole).sourceFrames
        (.noTrueQuestion (.cond whole))) := rfl

@[simp] theorem eval_zero (e : Expr) (env : Environment) : eval 0 e env = throw .outOfFrames := rfl

theorem eval_literal (frames : Nat) (text : String) (env : Environment) :
    eval (frames + 1) (.literal text) env = liftM (env.resolve text) := rfl

theorem eval_identifier (frames : Nat) (name : String) (env : Environment) :
    eval (frames + 1) (.identifier name) env = liftM (env.lookup name) := rfl

theorem eval_quote (frames : Nat) (d : Expr) (env : Environment) :
    eval (frames + 1) (.quote d) env = (do
      let found ← liftM (d.datum (.frames (frames - 1)))
      EvalM.place found) := rfl

/-- The branches that are left, as the evaluator goes through them: the fault at the end shows the whole
conditional, so that stays fixed. -/
theorem foldr_eq_evalBranches (frames : Nat) (whole rest : List (Expr × Expr)) (env : Environment) :
    rest.foldr
      (fun (question, answer) others => do
        match ← evalPart frames question env with
        | .bool true => evalPart frames answer env
        | _ => others)
      (EvalM.noTrueQuestion frames whole) = evalBranches frames whole env rest := by
  induction rest with
  | nil => rfl
  | cons b rest ih =>
    rw [List.foldr_cons, ih, evalBranches]
    refine congrArg (evalPart frames b.1 env >>= ·) (funext fun v => ?_)
    cases v with
    | bool b => cases b <;> rfl
    | _ => rfl

theorem eval_cond (frames : Nat) (branches : List (Expr × Expr)) (env : Environment) :
    eval (frames + 1) (.cond branches) env = evalBranches frames branches env branches :=
  foldr_eq_evalBranches frames branches branches env

theorem eval_lambda (frames : Nat) (params : List String) (body : Expr) (env : Environment) :
    eval (frames + 1) (.lambda params body) env = (do
      let cell ← EvalM.freshCell
      pure (.closure cell params body env)) := rfl

theorem eval_app (frames : Nat) (func : Expr) (args : List Expr) (env : Environment) :
    eval (frames + 1) (.app func args) env = (do
      let head ← eval frames func env
      let values ← args.mapM fun arg => evalPart frames arg env
      apply frames head values) := rfl

theorem eval_empty (frames : Nat) (env : Environment) :
    eval (frames + 1) .empty env = throw .emptyEvaluated := rfl

theorem eval_branch (frames : Nat) (question answer : Expr) (env : Environment) :
    eval (frames + 1) (.branch question answer) env =
      throw ((Headroom.frames frames).report (Expr.branch question answer).debugFrames
        (.unevaluable (.branch question answer))) := rfl

@[simp] theorem evalPart_zero (e : Expr) (env : Environment) :
    evalPart 0 e env = throw .outOfFrames := rfl

@[simp] theorem evalPart_succ (frames : Nat) (e : Expr) (env : Environment) :
    evalPart (frames + 1) e env = eval frames e env := rfl

/-! ## Application -/

@[simp] theorem apply_zero (callee : Value) (args : List Value) :
    apply 0 callee args = throw .outOfFrames := rfl

theorem apply_primitive (frames : Nat) (op : Primitive) (args : List Value) :
    apply (frames + 1) (.primitive op) args = op.call frames args := rfl

theorem apply_closure (frames cell : Nat) (params : List String) (body : Expr) (env : Environment)
    (args : List Value) :
    apply (frames + 1) (.closure cell params body env) args = (do
      let scope ← liftM (env.bindArgs params args)
      evalPart frames body scope) := rfl

theorem apply_uncallable (frames : Nat) {callee : Value} (h : callee.isCallable = false)
    (args : List Value) :
    apply (frames + 1) callee args =
      throw ((Headroom.frames frames).report callee.sourceFrames
        (.showing .uncallable callee.source)) := by
  rw [← EvalM.throw_shown]
  cases callee with
  | primitive | closure => cases h
  | _ => rfl

/-! ## Primitive operations -/

namespace Primitive

/-- The operations that answer a question about any value. -/
def test? : Primitive → Option (Value → Bool)
  | .isNull => some Value.isNil
  | .isAtom => some fun v => !v.isPair
  | .isNumber => some Value.isNumber
  | _ => none

/-- The operations on a number. -/
def ofNumber? : Primitive → Option (Int → Value)
  | .isZero => some fun n => .bool (n == 0)
  | .incr => some fun n => .int (n + 1)
  | .decr => some fun n => .int (n - 1)
  | _ => none

/-- The cases of a call: each operation with as many arguments as it takes, or with more or fewer. -/
@[elab_as_elim]
theorem callCases {motive : Primitive → List Value → Prop}
    (cons : ∀ head tail, motive .cons [head, tail])
    (cdr : ∀ cell head tail, motive .cdr [.pair cell head tail])
    (notPair : ∀ v, v.isPair = false → motive .cdr [v])
    (eq : ∀ a b, motive .eq [a, b])
    (test : ∀ op f v, test? op = some f → motive op [v])
    (number : ∀ op f n, ofNumber? op = some f → motive op [.int n])
    (notNumber : ∀ op f v, ofNumber? op = some f → v.isNumber = false → motive op [v])
    (count : ∀ op args, args.length ≠ op.arity → motive op args)
    (op : Primitive) (args : List Value) : motive op args := by
  match args with
  | [] => exact count op [] (by cases op <;> decide)
  | [v] =>
    have onNumber (op : Primitive) (f : Int → Value) (h : ofNumber? op = some f) :
        motive op [v] := by
      cases v with
      | int n => exact number op f n h
      | _ => exact notNumber op f _ h rfl
    cases op with
    | cons => exact count .cons [v] (by simp [arity])
    | eq => exact count .eq [v] (by simp [arity])
    | cdr =>
      cases v with
      | pair cell head tail => exact cdr cell head tail
      | _ => exact notPair _ rfl
    | isNull => exact test .isNull _ v rfl
    | isAtom => exact test .isAtom _ v rfl
    | isNumber => exact test .isNumber _ v rfl
    | isZero => exact onNumber .isZero _ rfl
    | incr => exact onNumber .incr _ rfl
    | decr => exact onNumber .decr _ rfl
  | [a, b] =>
    cases op with
    | cons => exact cons a b
    | eq => exact eq a b
    | _ => exact count _ [a, b] (by simp [arity])
  | a :: b :: c :: rest => exact count op _ (by cases op <;> simp [arity])

variable (frames : Nat)

-- Every operation is in the table of all of them, so the evaluator need not look it up.
theorem callIn_all (op : Primitive) (args : List Value) :
    callIn all frames op args = op.call frames args := by
  rw [callIn, if_pos (mem_all op)]

theorem call_cons (head tail : Value) :
    call frames .cons [head, tail] = (do
      let cell ← EvalM.freshCell
      pure (.pair cell head tail)) := rfl

theorem call_cdr_pair (cell : Nat) (head tail : Value) :
    call frames .cdr [.pair cell head tail] = pure tail := rfl

theorem call_cdr_other {v : Value} (h : v.isPair = false) :
    call frames .cdr [v] =
      throw ((Headroom.frames frames).report v.debugFrames (.showing .notPair v.debugForm)) := by
  rw [← EvalM.throw_shown]
  cases v with
  | pair => cases h
  | _ => rfl

theorem call_eq (a b : Value) :
    call frames .eq [a, b] =
      if a.comparisonFrames b ≤ frames then pure (.bool (a.isEqual b)) else throw .outOfFrames := by
  rw [call, Value.isEqualShared_eq]

theorem call_test {op : Primitive} {f : Value → Bool} (h : op.test? = some f) (v : Value) :
    call frames op [v] = pure (.bool (f v)) := by
  cases op <;> cases h <;> rfl

theorem call_number {op : Primitive} {f : Int → Value} (h : op.ofNumber? = some f) (n : Int) :
    call frames op [.int n] = pure (f n) := by
  cases op <;> cases h <;> rfl

theorem call_notNumber {op : Primitive} {f : Int → Value} (h : op.ofNumber? = some f) {v : Value}
    (other : v.isNumber = false) :
    call frames op [v] =
      throw ((Headroom.frames frames).report v.debugFrames
        (.showing (.notNumber op) v.debugForm)) := by
  have hcall : call frames op [v] = (do
      let n ← liftM (op.number frames v)
      pure (f n)) := by
    cases op <;> cases h <;> rfl
  have hnumber : op.number frames v = (do
      let shown ← v.debugFormIn frames
      .error (.notNumber op shown)) := by
    cases v with
    | int => cases other
    | _ => rfl
  rw [hcall, hnumber, ← EvalM.throw_shown, Value.debugFormIn]
  cases (if v.debugFrames ≤ frames then Fault.ofDigits v.debugForm else .error .outOfFrames) <;> rfl

theorem call_count {op : Primitive} {args : List Value} (h : args.length ≠ op.arity) :
    call frames op args = throw (.arity op.name op.arity args.length) := by
  match args with
  | [] => cases op <;> rfl
  | [v] =>
    cases op with
    | cons | eq => rfl
    | _ => exact absurd rfl h
  | [a, b] =>
    cases op with
    | cons | eq => exact absurd rfl h
    | cdr => cases a <;> rfl
    | _ => rfl
  | a :: b :: c :: rest =>
    cases op with
    | cdr => cases a <;> rfl
    | _ => rfl

end Primitive

end MiniLisp
