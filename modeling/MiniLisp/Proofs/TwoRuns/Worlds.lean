import Mathlib.Data.List.Forall2
import MiniLisp.Proofs.Evaluation.Agreement
import MiniLisp.Proofs.Quoting.Spelling
import MiniLisp.Proofs.TwoRuns.SideBySide

/-!
Two runs that are not in step. The one may find a value where the other makes it anew, so their counters of
cells drift apart and pairs that correspond need not be in cells that do; only closures are made in both
runs at once. A `World` says how far both runs are, and a `Correspondence` relates the values of the two
runs in it. What the rules derive for the one they derive for the other, and since a correspondence can
be read from either side, the two runs end together (`Correspondence.ends`).
-/

namespace MiniLisp

/-- Two runs at one time: their next free cells, and the cells of closures that correspond. -/
structure World where
  left : Nat
  right : Nat
  cells : Nat → Nat → Prop
  left_lt {c d : Nat} (h : cells c d) : c < left
  right_lt {c d : Nat} (h : cells c d) : d < right
  cells_iff {a b c d : Nat} (hac : cells a c) (hbd : cells b d) : a = b ↔ c = d

namespace World

/-- The second world is the first, some time later. -/
structure Later (w w' : World) : Prop where
  left : w.left ≤ w'.left
  right : w.right ≤ w'.right
  cells {c d : Nat} (h : w.cells c d) : w'.cells c d

theorem Later.refl (w : World) : w.Later w :=
  ⟨Nat.le_refl _, Nat.le_refl _, fun h => h⟩

theorem Later.trans {w w' w'' : World} (h : w.Later w') (h' : w'.Later w'') : w.Later w'' :=
  ⟨Nat.le_trans h.left h'.left, Nat.le_trans h.right h'.right, fun hcells => h'.cells (h.cells hcells)⟩

/-- The two runs, the other way round. -/
def flip (w : World) : World where
  left := w.right
  right := w.left
  cells d c := w.cells c d
  left_lt h := w.right_lt h
  right_lt h := w.left_lt h
  cells_iff hac hbd := (w.cells_iff hac hbd).symm

theorem Later.flip {w w' : World} (h : w.Later w') : w.flip.Later w'.flip :=
  ⟨h.right, h.left, fun hcells => h.cells hcells⟩

/-- Both runs have made a closure. -/
def make (w : World) : World where
  left := w.left + 1
  right := w.right + 1
  cells c d := w.cells c d ∨ c = w.left ∧ d = w.right
  left_lt := by
    rintro c d (h | ⟨rfl, -⟩)
    · exact Nat.lt_succ_of_lt (w.left_lt h)
    · exact Nat.lt_succ_self _
  right_lt := by
    rintro c d (h | ⟨-, rfl⟩)
    · exact Nat.lt_succ_of_lt (w.right_lt h)
    · exact Nat.lt_succ_self _
  cells_iff := by
    -- Cells that are in use differ from those of the new closures, on both sides.
    rintro a b c d (hac | ⟨rfl, rfl⟩) (hbd | ⟨rfl, rfl⟩)
    · exact w.cells_iff hac hbd
    · have hleft := w.left_lt hac
      have hright := w.right_lt hac
      omega
    · have hleft := w.left_lt hbd
      have hright := w.right_lt hbd
      omega
    · simp

theorem later_make (w : World) : w.Later w.make :=
  ⟨Nat.le_succ _, Nat.le_succ _, .inl⟩

/-- The runs have gone on to these counters, without a closure. -/
def move (w : World) {m n : Nat} (hleft : w.left ≤ m) (hright : w.right ≤ n) : World where
  left := m
  right := n
  cells := w.cells
  left_lt h := Nat.lt_of_lt_of_le (w.left_lt h) hleft
  right_lt h := Nat.lt_of_lt_of_le (w.right_lt h) hright
  cells_iff := w.cells_iff

theorem later_move (w : World) {m n : Nat} (hleft : w.left ≤ m) (hright : w.right ≤ n) :
    w.Later (w.move hleft hright) :=
  ⟨hleft, hright, fun h => h⟩

/-! ## Values -/

variable {w : World} {v v' u u' : Value}

/-- Values of one shape, with closures that correspond and that take as many arguments. -/
inductive Alike (w : World) : Value → Value → Prop
  | plain {v : Value} (h : v.cell? = none) : Alike w v v
  | pair {c d : Nat} {head head' tail tail' : Value} (hhead : Alike w head head')
      (htail : Alike w tail tail') : Alike w (.pair c head tail) (.pair d head' tail')
  | closure {c d : Nat} {params others : List String} {body body' : Expr} {env env' : Environment}
      (hcells : w.cells c d) (count : params.length = others.length) :
      Alike w (.closure c params body env) (.closure d others body' env')

theorem Alike.flip (h : w.Alike v v') : w.flip.Alike v' v := by
  induction h with
  | plain hplain => exact .plain hplain
  | pair _ _ ihhead ihtail => exact .pair ihhead ihtail
  | closure hcells count => exact .closure hcells count.symm

theorem Alike.kind (h : w.Alike v v') : v.kind = v'.kind := by
  cases h <;> rfl

theorem Alike.isPair (h : w.Alike v v') : v.isPair = v'.isPair := by
  cases h <;> rfl

theorem Alike.isNil (h : w.Alike v v') : v.isNil = v'.isNil := by
  cases h <;> rfl

theorem Alike.isNumber (h : w.Alike v v') : v.isNumber = v'.isNumber := by
  cases h <;> rfl

theorem Alike.isCallable (h : w.Alike v v') : v.isCallable = v'.isCallable := by
  cases h <;> rfl

theorem Alike.isTrue (h : w.Alike v v') : v.isTrue = v'.isTrue := by
  cases h <;> rfl

theorem Alike.isWritable (h : w.Alike v v') : v.isWritable = v'.isWritable := by
  induction h with
  | plain => rfl
  | pair _ _ ihhead ihtail => rw [Value.isWritable, Value.isWritable, ihhead, ihtail]
  | closure => rfl

/-- Both runs compare values with the same result: pairs by their parts, wherever these were made. -/
theorem Alike.isEqual (h : w.Alike v v') (h' : w.Alike u u') : v.isEqual u = v'.isEqual u' := by
  induction h generalizing u u' with
  | plain hplain =>
    cases h' with
    | plain => rfl
    | pair | closure =>
      rw [(Value.isEqual_of_plain hplain rfl).1, (Value.isEqual_of_plain hplain rfl).1]
  | pair _ _ ihhead ihtail =>
    cases h' with
    | plain hplain =>
      rw [(Value.isEqual_of_plain hplain rfl).2, (Value.isEqual_of_plain hplain rfl).2]
    | pair hhead htail => rw [Value.isEqual, Value.isEqual, ihhead hhead, ihtail htail]
    | closure => rfl
  | closure hcells =>
    cases h' with
    | plain hplain =>
      rw [(Value.isEqual_of_plain hplain rfl).2, (Value.isEqual_of_plain hplain rfl).2]
    | pair => rfl
    | closure hcells' =>
      rw [Value.isEqual, Value.isEqual, Bool.eq_iff_iff, beq_iff_eq, beq_iff_eq]
      exact w.cells_iff hcells hcells'

/-! ## Outcomes -/

variable {α β : Type} {R : World → α → β → Prop}

/-- The two runs end in related results at some later time, or in faults of one kind. -/
inductive Ends (R : World → α → β → Prop) (w : World) : Outcome α → Outcome β → Prop
  | ok {w' : World} {a : α} {b : β} {m n : Nat} (later : w.Later w') (left : w'.left = m)
      (right : w'.right = n) (h : R w' a b) : Ends R w (.ok a m) (.ok b n)
  | error {f g : Fault} {m n : Nat} (h : f.kind = g.kind) : Ends R w (.error f m) (.error g n)

theorem Ends.of_later {w' : World} (later : w.Later w') {o : Outcome α} {o' : Outcome β}
    (h : w'.Ends R o o') : w.Ends R o o' := by
  cases h with
  | ok later' left right h => exact .ok (later.trans later') left right h
  | error h => exact .error h

end World

/-! ## Correspondences -/

/-- Whether other expressions are evaluated for the expression, in the same environment. -/
def Expr.isCompound : Expr → Bool
  | .cond _ | .app _ _ => true
  | _ => false

theorem Expr.isCompound_of_atom {e : Expr} {a : Atom} (he : e.atom? = some a) : e.isCompound = false := by
  cases e with
  | cond | app => cases he
  | _ => rfl

theorem evaluates_atom_ok {e : Expr} {a : Atom} (he : e.atom? = some a) {env : Environment} {v : Value}
    (hv : env.valueOf a = .ok v) (next : Nat) : Evaluates e env next (.ok v next) := by
  have hrun : eval 1 e env next = .ok v next := by
    rw [eval_atom he, hv]
    rfl
  exact .of_eval hrun trivial

theorem evaluates_atom_error {e : Expr} {a : Atom} (he : e.atom? = some a) {env : Environment}
    {fault : Fault} (hfault : env.valueOf a = .error fault) (next : Nat) :
    Evaluates e env next (.error fault next) := by
  cases e with
  | literal text =>
    cases he
    have hresolves := resolves_resolve env text
    exact .literalFails (hfault ▸ hresolves)
  | identifier name =>
    cases he
    cases hget : env.get? name with
    | some v =>
      rw [Environment.valueOf_of_bound hget] at hfault
      cases hfault
    | none =>
      have hlacks := lacks_iff.2 hget
      have hlookup : env.lookup name = .error fault := hfault
      rw [lookup_of_lacks hlacks] at hlookup
      cases hlookup
      exact .identifierUnbound hlacks
  | _ => cases he

namespace World

/-- What is asked of two expressions in their environments: that both runs end with them in the same way, or
that they have parts which correspond. -/
inductive Parts (values : World → Value → Value → Prop)
    (code : World → Expr → Environment → Expr → Environment → Prop) (w : World)
    (env env' : Environment) : Expr → Expr → Prop
  | ends {e e' : Expr} {o o' : Outcome Value} (simple : e.isCompound = false)
      (simple' : e'.isCompound = false) (h : Evaluates e env w.left o)
      (h' : Evaluates e' env' w.right o') (hends : w.Ends values o o') :
      Parts values code w env env' e e'
  | cond {branches others : List (Expr × Expr)}
      (h : List.Forall₂ (fun b b' => code w b.1 env b'.1 env' ∧ code w b.2 env b'.2 env')
        branches others) :
      Parts values code w env env' (.cond branches) (.cond others)
  | app {func func' : Expr} {args others : List Expr} (hfunc : code w func env func' env')
      (hargs : List.Forall₂ (fun a a' => code w a env a' env') args others) :
      Parts values code w env env' (.app func args) (.app func' others)

end World

/-- Relations between the values of two runs, and between expressions in their environments, that each step
hands on to a later time. -/
structure Correspondence where
  values : World → Value → Value → Prop
  code : World → Expr → Environment → Expr → Environment → Prop
  values_later {w w' : World} (later : w.Later w') {v v' : Value} (h : values w v v') : values w' v v'
  code_later {w w' : World} (later : w.Later w') {e e' : Expr} {env env' : Environment}
    (h : code w e env e' env') : code w' e env e' env'
  alike {w : World} {v v' : Value} (h : values w v v') : w.Alike v v'
  plain {w : World} {v : Value} (h : v.cell? = none) : values w v v
  pair {w : World} {c d : Nat} {head head' tail tail' : Value} (hhead : values w head head')
    (htail : values w tail tail') : values w (.pair c head tail) (.pair d head' tail')
  tail {w : World} {c d : Nat} {head head' tail tail' : Value}
    (h : values w (.pair c head tail) (.pair d head' tail')) : values w tail tail'
  call {w : World} {c d : Nat} {params others : List String} {body body' : Expr}
    {env env' : Environment} {args args' : List Value}
    (h : values w (.closure c params body env) (.closure d others body' env'))
    (hargs : List.Forall₂ (values w) args args') (count : args.length = params.length)
    (count' : args'.length = others.length) :
    code w body (env.extend (params.zip args)) body' (env'.extend (others.zip args'))
  parts {w : World} {e e' : Expr} {env env' : Environment} (h : code w e env e' env') :
    w.Parts values code env env' e e'

namespace Correspondence

/-- The correspondence, seen from the second run. -/
def flip (C : Correspondence) : Correspondence where
  values w v v' := C.values w.flip v' v
  code w e env e' env' := C.code w.flip e' env' e env
  values_later later _ _ h := C.values_later later.flip h
  code_later later _ _ _ _ h := C.code_later later.flip h
  alike h := (C.alike h).flip
  plain h := C.plain h
  pair hhead htail := C.pair hhead htail
  tail h := C.tail h
  call h hargs count count' := C.call h hargs.flip count' count
  parts h := by
    have hparts := C.parts h
    cases hparts with
    | ends simple simple' hleft hright hends =>
      refine .ends simple' simple hright hleft ?_
      cases hends with
      | ok later left right h => exact .ok later.flip right left h
      | error h => exact .error h.symm
    | cond hbranches => exact .cond hbranches.flip
    | app hfunc hargs => exact .app hfunc hargs.flip

variable {C : Correspondence} {w : World}

theorem ends_ok {v v' : Value} (h : C.values w v v') :
    w.Ends C.values (.ok v w.left) (.ok v' w.right) :=
  .ok (.refl w) rfl rfl h

/-! ## Primitive operations -/

theorem kind_showing {fault : String → Fault} {kind : FaultKind} (hkind : ∀ s, (fault s).kind = kind)
    (text : Except DigitLimit String) :
    (Fault.showing fault text).kind = if text.isOk then kind else .digits := by
  cases text with
  | ok s => exact hkind s
  | error limit => rfl

theorem ends_showing (fault : String → Fault) {kind : FaultKind} (hkind : ∀ s, (fault s).kind = kind)
    {text text' : Except DigitLimit String} (h : text.isOk = text'.isOk) {m n : Nat} :
    w.Ends C.values (.error (.showing fault text) m) (.error (.showing fault text') n) := by
  refine .error ?_
  rw [kind_showing hkind, kind_showing hkind, h]

theorem yields {op : Primitive} {args args' : List Value} {o : Outcome Value}
    (h : op.Yields args w.left o) (hargs : List.Forall₂ (C.values w) args args') :
    ∃ o', op.Yields args' w.right o' ∧ w.Ends C.values o o' := by
  cases h with
  | cons =>
    obtain ⟨head, tail, rfl, hhead, htail⟩ := eq_pair_of_forall₂ hargs
    have later := w.later_move (Nat.le_succ _) (Nat.le_succ _)
    exact ⟨_, .cons, .ok later rfl rfl
      (C.pair (C.values_later later hhead) (C.values_later later htail))⟩
  | cdr =>
    obtain ⟨v', rfl, hv⟩ := eq_singleton_of_forall₂ hargs
    cases C.alike hv with
    | plain hplain => cases hplain
    | pair => exact ⟨_, .cdr, ends_ok (C.tail hv)⟩
  | @notPair v _ other =>
    obtain ⟨v', rfl, hv⟩ := eq_singleton_of_forall₂ hargs
    have halike := C.alike hv
    refine ⟨_, .notPair (halike.isPair ▸ other), ends_showing .notPair (fun _ => rfl) ?_⟩
    rw [Value.isOk_debugForm, Value.isOk_debugForm, halike.isWritable]
  | eq =>
    obtain ⟨a', b', rfl, ha, hb⟩ := eq_pair_of_forall₂ hargs
    refine ⟨_, .eq, ends_ok ?_⟩
    rw [(C.alike ha).isEqual (C.alike hb)]
    exact C.plain rfl
  | @test _ f v _ hf =>
    obtain ⟨v', rfl, hv⟩ := eq_singleton_of_forall₂ hargs
    have halike := C.alike hv
    have hanswer : f v = f v' := by
      cases op <;> cases hf
      · exact halike.isNil
      · exact congrArg (!·) halike.isPair
      · exact halike.isNumber
    refine ⟨_, .test hf, ends_ok ?_⟩
    rw [hanswer]
    exact C.plain rfl
  | number hf =>
    obtain ⟨v', rfl, hv⟩ := eq_singleton_of_forall₂ hargs
    cases C.alike hv
    refine ⟨_, .number hf, ends_ok (C.plain ?_)⟩
    cases op <;> cases hf <;> rfl
  | @notNumber _ f v _ hf other =>
    obtain ⟨v', rfl, hv⟩ := eq_singleton_of_forall₂ hargs
    have halike := C.alike hv
    refine ⟨_, .notNumber hf (halike.isNumber ▸ other), ends_showing (.notNumber op) (fun _ => rfl) ?_⟩
    rw [Value.isOk_debugForm, Value.isOk_debugForm, halike.isWritable]
  | count hcount => exact ⟨_, .count (hargs.length_eq ▸ hcount), .error rfl⟩

/-! ## Runs -/

theorem forward_of_simple {e e' : Expr} {env env' : Environment} {o : Outcome Value}
    (simple : e.isCompound = false) (h : Evaluates e env w.left o) (hcode : C.code w e env e' env') :
    ∃ o', Evaluates e' env' w.right o' ∧ w.Ends C.values o o' := by
  cases C.parts hcode with
  | ends _ _ hleft hright hends =>
    obtain rfl := h.endsWith.unique hleft.endsWith
    exact ⟨_, hright, hends⟩
  | cond | app => cases simple

-- By recursion on the derivation for the first run. The derivation for the second goes on from the world in
-- which the part before has ended.
mutual

theorem forward : ∀ {e : Expr} {env : Environment} {next : Nat} {o : Outcome Value},
    Evaluates e env next o → ∀ {w : World} {e' : Expr} {env' : Environment}, w.left = next →
      C.code w e env e' env' → ∃ o', Evaluates e' env' w.right o' ∧ w.Ends C.values o o'
  | _, _, _, _, .literal h, _, _, _, rfl, hcode => forward_of_simple rfl (.literal h) hcode
  | _, _, _, _, .literalFails h, _, _, _, rfl, hcode => forward_of_simple rfl (.literalFails h) hcode
  | _, _, _, _, .identifier h, _, _, _, rfl, hcode => forward_of_simple rfl (.identifier h) hcode
  | _, _, _, _, .identifierUnbound h, _, _, _, rfl, hcode =>
    forward_of_simple rfl (.identifierUnbound h) hcode
  | _, _, _, _, .quote h, _, _, _, rfl, hcode => forward_of_simple rfl (.quote h) hcode
  | _, _, _, _, .quoteFails h, _, _, _, rfl, hcode => forward_of_simple rfl (.quoteFails h) hcode
  | _, _, _, _, .lambda, _, _, _, rfl, hcode => forward_of_simple rfl .lambda hcode
  | _, _, _, _, .empty, _, _, _, rfl, hcode => forward_of_simple rfl .empty hcode
  | _, _, _, _, .branch, _, _, _, rfl, hcode => forward_of_simple rfl .branch hcode
  | _, _, _, _, .cond h, _, _, _, rfl, hcode => by
    cases C.parts hcode with
    | ends simple => cases simple
    | cond hbranches =>
      obtain ⟨o', hchooses, hends⟩ := forward_branches h rfl hbranches
      exact ⟨o', .cond hchooses, hends⟩
  | _, _, _, _, .headFails hfunc, _, _, _, rfl, hcode => by
    cases C.parts hcode with
    | ends simple => cases simple
    | app hhead hargs =>
      obtain ⟨_, hfunc', hends⟩ := forward hfunc rfl hhead
      cases hends with
      | error hkind => exact ⟨_, .headFails hfunc', .error hkind⟩
  | _, _, _, _, .argFails hfunc hargs, _, _, _, rfl, hcode => by
    cases C.parts hcode with
    | ends simple => cases simple
    | app hhead hcodes =>
      obtain ⟨_, hfunc', hends⟩ := forward hfunc rfl hhead
      cases hends with
      | ok later left right _ =>
        subst right
        have hcodes := hcodes.imp fun _ _ ha => C.code_later later ha
        obtain ⟨_, hargs', hends⟩ := forward_all hargs left hcodes
        cases hends with
        | error hkind => exact ⟨_, .argFails hfunc' hargs', .error hkind⟩
  | _, _, _, _, .app hfunc hargs happly, _, _, _, rfl, hcode => by
    cases C.parts hcode with
    | ends simple => cases simple
    | app hhead hcodes =>
      obtain ⟨_, hfunc', hends⟩ := forward hfunc rfl hhead
      cases hends with
      | ok later left right hvalue =>
        subst right
        have hcodes := hcodes.imp fun _ _ ha => C.code_later later ha
        obtain ⟨_, hargs', hends⟩ := forward_all hargs left hcodes
        cases hends with
        | ok later' left right hvalues =>
          subst right
          obtain ⟨o', happly', hends⟩ :=
            forward_apply happly left (C.values_later later' hvalue) hvalues
          exact ⟨o', .app hfunc' hargs' happly', hends.of_later (later.trans later')⟩

theorem forward_all : ∀ {es : List Expr} {env : Environment} {next : Nat}
    {o : Outcome (List Value)}, EvaluatesAll es env next o →
      ∀ {w : World} {es' : List Expr} {env' : Environment}, w.left = next →
        List.Forall₂ (fun e e' => C.code w e env e' env') es es' →
          ∃ o', EvaluatesAll es' env' w.right o' ∧
            w.Ends (fun w => List.Forall₂ (C.values w)) o o'
  | _, _, _, _, .nil, w, _, _, rfl, .nil => ⟨_, .nil, .ok (.refl w) rfl rfl .nil⟩
  | _, _, _, _, .headFails h, _, _, _, rfl, .cons hcode _ => by
    obtain ⟨_, h', hends⟩ := forward h rfl hcode
    cases hends with
    | error hkind => exact ⟨_, .headFails h', .error hkind⟩
  | _, _, _, _, .tailFails h hrest, _, _, _, rfl, .cons hcode hcodes => by
    obtain ⟨_, h', hends⟩ := forward h rfl hcode
    cases hends with
    | ok later left right _ =>
      subst right
      have hcodes := hcodes.imp fun _ _ ha => C.code_later later ha
      obtain ⟨_, hrest', hends⟩ := forward_all hrest left hcodes
      cases hends with
      | error hkind => exact ⟨_, .tailFails h' hrest', .error hkind⟩
  | _, _, _, _, .cons h hrest, _, _, _, rfl, .cons hcode hcodes => by
    obtain ⟨_, h', hends⟩ := forward h rfl hcode
    cases hends with
    | ok later left right hvalue =>
      subst right
      have hcodes := hcodes.imp fun _ _ ha => C.code_later later ha
      obtain ⟨_, hrest', hends⟩ := forward_all hrest left hcodes
      cases hends with
      | ok later' left right hvalues =>
        exact ⟨_, .cons h' (right ▸ hrest'), .ok (later.trans later') left rfl
          (.cons (C.values_later later' hvalue) hvalues)⟩

theorem forward_branches : ∀ {whole : List (Expr × Expr)} {env : Environment}
    {rest : List (Expr × Expr)} {next : Nat} {o : Outcome Value}, Chooses whole env rest next o →
      ∀ {w : World} {whole' rest' : List (Expr × Expr)} {env' : Environment}, w.left = next →
        List.Forall₂ (fun b b' => C.code w b.1 env b'.1 env' ∧ C.code w b.2 env b'.2 env')
          rest rest' → ∃ o', Chooses whole' env' rest' w.right o' ∧ w.Ends C.values o o'
  | _, _, _, _, _, .exhausted, _, _, _, _, rfl, .nil => ⟨_, .exhausted, .error rfl⟩
  | _, _, _, _, _, .questionFails h, _, _, _, _, rfl, .cons hcode _ => by
    obtain ⟨_, h', hends⟩ := forward h rfl hcode.1
    cases hends with
    | error hkind => exact ⟨_, .questionFails h', .error hkind⟩
  | _, _, _, _, _, .selected h hanswer, _, _, _, _, rfl, .cons hcode _ => by
    obtain ⟨_, h', hends⟩ := forward h rfl hcode.1
    cases hends with
    | ok later left right hvalue =>
      subst right
      obtain ⟨o', hanswer', hends⟩ := forward hanswer left (C.code_later later hcode.2)
      cases C.alike hvalue with
      | plain => exact ⟨o', .selected h' hanswer', hends.of_later later⟩
  | _, _, _, _, _, .passed h other hrest, _, _, _, _, rfl, .cons hcode hcodes => by
    obtain ⟨_, h', hends⟩ := forward h rfl hcode.1
    cases hends with
    | ok later left right hvalue =>
      subst right
      have hcodes := hcodes.imp fun _ _ hb => hb.imp (C.code_later later) (C.code_later later)
      obtain ⟨o', hrest', hends⟩ := forward_branches hrest left hcodes
      have hother := mt Value.isTrue_iff.1 other
      rw [(C.alike hvalue).isTrue] at hother
      exact ⟨o', .passed h' (mt Value.isTrue_iff.2 hother) hrest', hends.of_later later⟩

theorem forward_apply : ∀ {callee : Value} {args : List Value} {next : Nat} {o : Outcome Value},
    Applies callee args next o → ∀ {w : World} {callee' : Value} {args' : List Value},
      w.left = next → C.values w callee callee' → List.Forall₂ (C.values w) args args' →
        ∃ o', Applies callee' args' w.right o' ∧ w.Ends C.values o o'
  | _, _, _, _, .primitive h, _, _, _, rfl, hcallee, hargs => by
    cases C.alike hcallee with
    | plain =>
      obtain ⟨o', h', hends⟩ := yields h hargs
      exact ⟨o', .primitive h', hends⟩
  | _, _, _, _, .closure count h, _, _, _, rfl, hcallee, hargs => by
    cases C.alike hcallee with
    | plain hplain => cases hplain
    | closure _ hparams =>
      have count' := hargs.length_eq.symm.trans (count.trans hparams)
      obtain ⟨o', h', hends⟩ := forward h rfl (C.call hcallee hargs count count')
      exact ⟨o', .closure count' h', hends⟩
  | _, _, _, _, .closureCount count, _, _, _, rfl, hcallee, hargs => by
    cases C.alike hcallee with
    | plain hplain => cases hplain
    | closure _ hparams =>
      have count' := fun h => count (hargs.length_eq.trans (Eq.trans h hparams.symm))
      exact ⟨_, .closureCount count', .error rfl⟩
  | _, _, _, _, .uncallable h, _, _, _, rfl, hcallee, hargs => by
    have halike := C.alike hcallee
    refine ⟨_, .uncallable (halike.isCallable ▸ h), ends_showing .uncallable (fun _ => rfl) ?_⟩
    rw [Value.isOk_source, Value.isOk_source, halike.isWritable]

end

/-- Two runs that correspond end together: in values that correspond, or in faults of one kind. -/
theorem ends {e e' : Expr} {env env' : Environment} (h : C.code w e env e' env') :
    ((∃ o, EndsWith e env w.left o) ↔ ∃ o, EndsWith e' env' w.right o) ∧
      ∀ o o', EndsWith e env w.left o → EndsWith e' env' w.right o' → w.Ends C.values o o' := by
  refine ⟨⟨?_, ?_⟩, fun o o' ho ho' => ?_⟩
  · rintro ⟨o, ho⟩
    obtain ⟨o', ho', -⟩ := forward (endsWith_iff_evaluates.1 ho) rfl h
    exact ⟨o', ho'.endsWith⟩
  · rintro ⟨o', ho'⟩
    have hflip : C.flip.code w.flip e' env' e env := h
    obtain ⟨o, ho, -⟩ := forward (endsWith_iff_evaluates.1 ho') rfl hflip
    exact ⟨o, ho.endsWith⟩
  · obtain ⟨o₂, ho₂, hends⟩ := forward (endsWith_iff_evaluates.1 ho) rfl h
    obtain rfl := ho'.unique ho₂.endsWith
    exact hends

end Correspondence

end MiniLisp
