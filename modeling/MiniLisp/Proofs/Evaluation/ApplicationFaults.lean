import MiniLisp.Proofs.Evaluation.Agreement
import MiniLisp.Proofs.Numerals.Decimal
import MiniLisp.Proofs.Quoting.Spelling
import MiniLisp.Proofs.Reachability.BuiltPrograms

/-!
What an application comes to, up to where the body of a closure runs. The head and the arguments decide which
fault there is, if any, and the digit limit takes its place where the value to be shown holds an integer that
cannot be written (`application_faults_are_exact`).
-/

namespace MiniLisp

/-! ## Integers that cannot be written -/

namespace Value

/-- The value is an integer with more decimal digits than can be written, or a pair with such an integer
somewhere in its parts. Closures do not count. -/
inductive HoldsLongInteger : Value → Prop
  | int {n : Int} (h : Numeral.maxDigits < (Nat.toDigits 10 n.natAbs).length) : HoldsLongInteger (.int n)
  | head {cell : Nat} {head tail : Value} (h : HoldsLongInteger head) :
      HoldsLongInteger (.pair cell head tail)
  | tail {cell : Nat} {head tail : Value} (h : HoldsLongInteger tail) :
      HoldsLongInteger (.pair cell head tail)

theorem isWritable_eq_false_iff {v : Value} : v.isWritable = false ↔ v.HoldsLongInteger := by
  induction v with
  | int n =>
    have hlength : (Nat.toDigits 10 n.natAbs).length ≤ Numeral.maxDigits ↔
        n.natAbs < Nat.pow 10 Numeral.maxDigits :=
      Numeral.length_toDigits_le_iff (by decide) n.natAbs
    rw [isWritable, decide_eq_false_iff_not]
    unfold Numeral.bound
    rw [← hlength, Nat.not_le]
    constructor
    · exact .int
    · rintro ⟨h⟩
      exact h
  | pair cell head tail ihhead ihtail =>
    rw [isWritable, Bool.and_eq_false_iff, ihhead, ihtail]
    constructor
    · rintro (h | h)
      · exact .head h
      · exact .tail h
    · intro h
      cases h with
      | head h => exact .inl h
      | tail h => exact .inr h
  | _ =>
    constructor
    · intro h
      cases h
    · intro h
      cases h

end Value

/-! ## Refusals -/

/-- Without a limit on frames, applying the value ends with the outcome. -/
def AppliesTo (callee : Value) (args : List Value) (next : Nat) (o : Outcome Value) : Prop :=
  Settles (fun frames => apply frames callee args next) o

/-- The application ends with a fault that shows this text of a value, or with the digit limit exactly if the
value holds an integer that cannot be written. -/
structure Refuses (callee : Value) (args : List Value) (next : Nat) (fault : String → Fault) (v : Value)
    (text : Except DigitLimit String) : Prop where
  shown (h : ¬ v.HoldsLongInteger) :
    ∃ shown, text = .ok shown ∧ AppliesTo callee args next (.error (fault shown) next)
  limit (h : v.HoldsLongInteger) : AppliesTo callee args next (.error (.digits .writing) next)

section

variable {callee v : Value} {args : List Value} {next : Nat} {fault : String → Fault}
  {text : Except DigitLimit String}

theorem Applies.refuses (h : Applies callee args next (.error (.showing fault text) next))
    (htext : (v.isWritable = true ∧ ∃ s, text = .ok s) ∨ (v.isWritable = false ∧ text = .error .writing)) :
    Refuses callee args next fault v text := by
  rcases htext with ⟨hwritable, shown, rfl⟩ | ⟨hwritable, rfl⟩
  · have hshort : ¬ v.HoldsLongInteger := by
      rw [← Value.isWritable_eq_false_iff, hwritable]
      decide
    exact ⟨fun _ => ⟨shown, rfl, h.settles⟩, fun hlong => absurd hlong hshort⟩
  · have hlong := Value.isWritable_eq_false_iff.1 hwritable
    exact ⟨fun hshort => absurd hlong hshort, fun _ => h.settles⟩

theorem refuses_uncallable (h : callee.isCallable = false) :
    Refuses callee args next .uncallable callee callee.source :=
  (Applies.uncallable h).refuses callee.source_cases

end

/-! ## Arguments of the wrong kind -/

namespace Primitive

variable {op : Primitive} {args : List Value} {fault : String → Fault} {v : Value}

/-- The argument of the operation is of a kind that it does not take, and the fault is to show it: a pair is
needed, or a number. -/
inductive Misfits : Primitive → List Value → (String → Fault) → Value → Prop
  | notPair {v : Value} (h : v.isPair = false) : Misfits .cdr [v] .notPair v
  | notNumber {op : Primitive} {v : Value} (hop : op ∈ [.isZero, .incr, .decr])
      (h : v.isNumber = false) : Misfits op [v] (.notNumber op) v

theorem exists_ofNumber?_iff :
    (∃ f, op.ofNumber? = some f) ↔ op ∈ [Primitive.isZero, .incr, .decr] := by
  cases op <;> simp [ofNumber?]

theorem Misfits.yields (h : op.Misfits args fault v) (next : Nat) :
    op.Yields args next (.error (.showing fault v.debugForm) next) := by
  cases h with
  | notPair h => exact .notPair h
  | notNumber hop h =>
    obtain ⟨f, hf⟩ := exists_ofNumber?_iff.2 hop
    exact .notNumber hf h

theorem Misfits.refuses (h : op.Misfits args fault v) (next : Nat) :
    Refuses (.primitive op) args next fault v v.debugForm :=
  (Applies.primitive (h.yields next)).refuses v.debugForm_cases

theorem misfits_or_yields (hcount : args.length = op.arity) (next : Nat) :
    (∃ fault v, op.Misfits args fault v) ∨ ∃ result after, op.Yields args next (.ok result after) := by
  induction op, args using callCases with
  | cons head tail => exact .inr ⟨_, _, .cons⟩
  | cdr cell head tail => exact .inr ⟨_, _, .cdr⟩
  | notPair v other => exact .inl ⟨_, v, .notPair other⟩
  | eq a b => exact .inr ⟨_, _, .eq⟩
  | test op f v hf => exact .inr ⟨_, _, .test hf⟩
  | number op f n hf => exact .inr ⟨_, _, .number hf⟩
  | notNumber op f v hf other => exact .inl ⟨_, v, .notNumber (exists_ofNumber?_iff.1 ⟨f, hf⟩) other⟩
  | count op args hne => exact absurd hcount hne

end Primitive

/-! ## Operations that are not in the table -/

/-- Any expression and any closure: what remains is that the operations of a run are known. -/
def knownPrimitives : RunInvariant where
  safe _ _ := True
  closure _ _ _ _ := True
  allowed fault := fault.kind ≠ .unknownPrimitive
  runtime h hkind := by
    rw [hkind] at h
    cases h
  literal _ hfault hkind := resolve_not_internal hfault (by rw [hkind]; decide)
  identifier {name env _} _ hfault := by
    cases hget : env.get? name with
    | some v =>
      rw [lookup_of_binds (binds_iff.2 hget)] at hfault
      cases hfault
    | none =>
      rw [lookup_of_lacks (lacks_iff.2 hget)] at hfault
      cases hfault
      show FaultKind.unbound ≠ .unknownPrimitive
      decide
  quote {d _ room _} _ hfault hkind := by
    have hmem := Expr.datum_failsOnly d room _ hfault
    rw [hkind] at hmem
    simp at hmem
  empty _ := by decide
  branch _ := by
    show FaultKind.unevaluable ≠ .unknownPrimitive
    decide
  cond _ _ := ⟨trivial, trivial⟩
  head _ := trivial
  arg _ _ := trivial
  lambda _ _ := trivial
  call _ _ := trivial

theorem kind_ne_unknownPrimitive_of_apply {frames next after : Nat} {callee : Value} {args : List Value}
    {fault : Fault} (h : apply frames callee args next = .error fault after) :
    fault.kind ≠ .unknownPrimitive := by
  have hclosures (v : Value) : v.AllClosures knownPrimitives.closure := fun _ _ _ _ _ => trivial
  have hargs (v : Value) (_ : v ∈ args) : v.AllClosures knownPrimitives.closure := hclosures v
  have hrun := (knownPrimitives.keptBy frames).apply (hclosures callee) hargs next
  rwa [h] at hrun

/-! ## Applications -/

/-- What an application comes to, unless a closure is called with as many arguments as it has parameters, for then
its body runs. A head that cannot be applied is refused, and so are arguments of a wrong number, before they
are looked at, and an argument of a wrong kind; any other call of an operation returns a value. Only where
the value to be shown holds an integer that cannot be written is the fault the digit limit. With few frames
an application may run out of them, and it never misses an operation. -/
theorem application_faults_are_exact (callee : Value) (args : List Value) (next : Nat) :
    (callee.isCallable = false → Refuses callee args next .uncallable callee callee.source) ∧
    (∀ op, callee = .primitive op →
      (args.length ≠ op.arity → ∀ frames, apply (frames + 1) callee args next =
        .error (.arity op.name op.arity args.length) next) ∧
      (args.length = op.arity →
        (∀ fault v, op.Misfits args fault v → Refuses callee args next fault v v.debugForm) ∧
        ((¬ ∃ fault v, op.Misfits args fault v) →
          ∃ result after, AppliesTo callee args next (.ok result after)))) ∧
    (∀ cell params body (env : Environment), callee = .closure cell params body env →
      (args.length ≠ params.length → ∀ frames, apply (frames + 1) callee args next =
        .error (.arity (Value.closureSource params) params.length args.length) next) ∧
      (args.length = params.length → ∀ frames, apply (frames + 1) callee args next =
        evalPart frames body (env.extend (params.zip args)) next)) ∧
    (∀ frames o, AppliesTo callee args next o →
      apply frames callee args next = o ∨ ∃ after, apply frames callee args next = .error .outOfFrames after) ∧
    (∀ frames fault after, apply frames callee args next = .error fault after →
      fault.kind ≠ .unknownPrimitive) ∧
    (∀ table frames op,
      (op ∈ table → Primitive.callIn table frames op args = apply (frames + 1) (.primitive op) args) ∧
      (op ∉ table → Primitive.callIn table frames op args next = .error (.unknownPrimitive op) next)) ∧
    (∀ shown, (Fault.uncallable shown).kind = .uncallable) ∧
    (∀ (op : Primitive) fault v shown, op.Misfits args fault v → (fault shown).kind = .type) ∧
    (∀ name expected given, (Fault.arity name expected given).kind = .arity) ∧
    (Fault.digits .writing).kind = .digits := by
  refine ⟨fun h => refuses_uncallable h, ?_, ?_, fun frames o h => ?_,
    fun frames fault after h => kind_ne_unknownPrimitive_of_apply h,
    fun table frames op => ⟨fun h => ?_, fun h => ?_⟩, fun shown => rfl, fun op fault v shown h => ?_,
    fun name expected given => rfl, rfl⟩
  · rintro op rfl
    refine ⟨fun hcount frames => ?_, fun hcount => ⟨fun fault v h => h.refuses next, fun hfits => ?_⟩⟩
    · rw [apply_primitive, Primitive.call_count _ hcount]
      rfl
    · obtain ⟨result, after, h⟩ := (Primitive.misfits_or_yields hcount next).resolve_left hfits
      exact ⟨result, after, (Applies.primitive h).settles⟩
  · rintro cell params body env rfl
    refine ⟨fun hcount frames => ?_, fun hcount frames => ?_⟩
    · rw [apply_closure, Environment.bindArgs, if_neg hcount]
      rfl
    · rw [apply_closure, Environment.bindArgs, if_pos hcount]
      rfl
  · obtain ⟨more, hmore, hle⟩ := (h.eventually.and (Filter.eventually_ge_atTop frames)).exists
    rcases (keptWith_of_le hle).2.2 callee args next with hout | hsame
    · exact .inr hout
    · exact .inl (hsame.symm.trans hmore)
  · rw [apply_primitive, Primitive.callIn, if_pos h]
  · rw [Primitive.callIn, if_neg h]
    rfl
  · cases h with
    | notPair => rfl
    | notNumber => rfl

/-- Calls of a boolean, of a list with an integer that cannot be written, and of operations and a closure on such
a list. -/
theorem applications_to_a_long_integer :
    let long : Value := .pair 0 (.int Numeral.bound) .nil
    let closure : Value := .closure 1 ["x", "y"] (.literal "x") []
    long.HoldsLongInteger ∧
      AppliesTo (.bool true) [long] 3 (.error (.uncallable "#t") 3) ∧
      AppliesTo long [] 3 (.error (.digits .writing) 3) ∧
      apply 1 (.primitive .isZero) [long, long] 3 = .error (.arity "zero?" 1 2) 3 ∧
      AppliesTo (.primitive .isZero) [long] 3 (.error (.digits .writing) 3) ∧
      AppliesTo (.primitive .cdr) [closure] 3 (.error (.notPair "Closure(('x', 'y'), 'x')") 3) ∧
      (∃ result after, AppliesTo (.primitive .eq) [long, closure] 3 (.ok result after)) ∧
      apply 1 closure [long] 3 = .error (.arity "#<closure (x y)>" 2 1) 3 ∧
      apply 2 closure [long, long] 3 =
        evalPart 1 (.literal "x") [[("x", long), ("y", long)]] 3 ∧
      Primitive.callIn [.cons] 9 .cdr [long] 3 = .error (.unknownPrimitive .cdr) 3 := by
  intro long closure
  have hlong : long.HoldsLongInteger := by
    have hint : (Value.int Numeral.bound).isWritable = false := by
      rw [Value.isWritable, Int.natAbs_natCast, decide_eq_false_iff_not]
      exact Nat.lt_irrefl _
    exact .head (Value.isWritable_eq_false_iff.1 hint)
  have hshort : ¬ (Value.closure 1 ["x", "y"] (.literal "x") []).HoldsLongInteger := fun h => by cases h
  obtain ⟨hbool, -⟩ := application_faults_are_exact (.bool true) [long] 3
  obtain ⟨hlist, -⟩ := application_faults_are_exact long [] 3
  obtain ⟨-, hzeros, -⟩ := application_faults_are_exact (.primitive .isZero) [long, long] 3
  obtain ⟨-, hzero, -, -, -, htable, -⟩ := application_faults_are_exact (.primitive .isZero) [long] 3
  obtain ⟨-, hcdr, -⟩ := application_faults_are_exact (.primitive .cdr) [closure] 3
  obtain ⟨-, heq, -⟩ := application_faults_are_exact (.primitive .eq) [long, closure] 3
  obtain ⟨-, -, hclosure, -⟩ := application_faults_are_exact closure [long] 3
  obtain ⟨-, -, hcall, -⟩ := application_faults_are_exact closure [long, long] 3
  obtain ⟨shown, hshown, huncallable⟩ := (hbool rfl).shown (fun h => by cases h)
  obtain ⟨shown', hshown', hnotPair⟩ :=
    (((hcdr .cdr rfl).2 rfl).1 .notPair closure (.notPair rfl)).shown hshort
  cases hshown
  cases hshown'
  refine ⟨hlong, huncallable, (hlist rfl).limit hlong, (hzeros .isZero rfl).1 (by decide) 0,
    (((hzero .isZero rfl).2 rfl).1 _ long (.notNumber (by decide) rfl)).limit hlong, hnotPair, ?_,
    (hclosure _ _ _ _ rfl).1 (by decide) 0, (hcall _ _ _ _ rfl).2 rfl 1, (htable _ _ _).2 (by decide)⟩
  refine ((heq .eq rfl).2 rfl).2 ?_
  rintro ⟨fault, v, h⟩
  cases h

end MiniLisp
