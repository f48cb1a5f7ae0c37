import Mathlib.Data.List.Basic
import MiniLisp.Proofs.Reachability.BuiltPrograms
import MiniLisp.Proofs.Workspaces.Queries

/-!
How a call binds its arguments. The parameters are zipped with them and inserted one after the other, so a
parameter that is repeated keeps its first place in the frame and gets its last argument. Lambdas that the
builder makes repeat none.
-/

namespace MiniLisp

/-! ## First and last positions -/

/-- The last position at which the name is among the parameters. -/
structure LastAt (params : List String) (name : String) (i : Nat) : Prop where
  here : params[i]? = some name
  last : ∀ j, i < j → params[j]? ≠ some name

namespace LastAt

variable {params : List String} {name : String} {i j : Nat}

theorem unique (h : LastAt params name i) (h' : LastAt params name j) : i = j := by
  rcases Nat.lt_trichotomy i j with hlt | heq | hgt
  · exact absurd h'.here (h.last j hlt)
  · exact heq
  · exact absurd h.here (h'.last i hgt)

/-- The place of a name counted from the end is that of its last occurrence. -/
theorem of_slot {k : Nat} (h : slot params name = some k) :
    LastAt params name (params.length - 1 - k) := by
  obtain ⟨hplace, hname, hfirst⟩ := List.idxOf?_eq_some_iff.1 h
  have hk := slot_lt h
  constructor
  · rw [← List.getElem?_reverse hk, List.getElem?_eq_getElem hplace, hname]
  · intro j hj hfound
    -- A later occurrence would be nearer to the end.
    have hlt : j < params.length := (List.getElem?_eq_some_iff.1 hfound).1
    have hback : params.length - 1 - (params.length - 1 - j) = j := by omega
    have hmirror : params.reverse[params.length - 1 - j]? = some name := by
      rw [List.getElem?_reverse (by omega), hback, hfound]
    obtain ⟨_, hsame⟩ := List.getElem?_eq_some_iff.1 hmirror
    exact hfirst (params.length - 1 - j) (by omega) hsame

theorem of_nodup (nodup : params.Nodup) (h : params[i]? = some name) : LastAt params name i := by
  refine ⟨h, fun j hj hname => ?_⟩
  have hi : i < params.length := (List.getElem?_eq_some_iff.1 h).1
  have hsame : i = j := (List.getElem?_inj hi nodup).1 (h.trans hname.symm)
  omega

end LastAt

/-- Without their repetitions the names are in the order in which they first occur. -/
theorem pairwise_eraseDups (names : List String) :
    names.eraseDups.Pairwise fun name other => names.idxOf name < names.idxOf other := by
  -- One more name at the end moves no first occurrence, and its own is after all others.
  induction names using List.reverseRecOn with
  | nil => exact .nil
  | append_singleton names last ih =>
    have hbefore : names.eraseDups.Pairwise fun name other =>
        (names ++ [last]).idxOf name < (names ++ [last]).idxOf other := by
      refine ih.imp_of_mem fun hname hother hlt => ?_
      rwa [List.idxOf_append_of_mem (List.mem_eraseDups.1 hname),
        List.idxOf_append_of_mem (List.mem_eraseDups.1 hother)]
    rw [eraseDups_concat]
    by_cases hlast : last ∈ names
    · rwa [if_pos hlast]
    · rw [if_neg hlast]
      refine List.pairwise_append.2 ⟨hbefore, List.pairwise_singleton .., fun name hname other hother => ?_⟩
      rw [List.mem_singleton.1 hother, List.idxOf_append_of_mem (List.mem_eraseDups.1 hname),
        List.idxOf_append_of_notMem hlast]
      have hlt := List.idxOf_lt_length_iff.2 (List.mem_eraseDups.1 hname)
      omega

theorem nodup_eraseDups (names : List String) : names.eraseDups.Nodup :=
  (pairwise_eraseDups names).imp fun hlt heq => by
    rw [heq] at hlt
    exact Nat.lt_irrefl _ hlt

/-! ## The scope of a call -/

/-- What is known of the frame that a call puts in front of the captured environment. -/
structure IsCallFrame (env : Environment) (params : List String) (args : List Value) (frame : Frame) :
    Prop where
  /-- The frame has each parameter, and nothing else. -/
  names (name : String) : name ∈ frame.names ↔ name ∈ params
  once : frame.names.Nodup
  /-- The names are in the order of their first occurrences among the parameters. -/
  inOrder : frame.names.Pairwise fun name other => params.idxOf name < params.idxOf other
  /-- A parameter means the argument at its last position. -/
  param : ∀ name ∈ params, ∃ i v, LastAt params name i ∧ args[i]? = some v ∧
    Environment.lookup (frame :: env) name = .ok v ∧ Environment.find? (frame :: env) name = some 0
  /-- Every other name means what it means in the captured environment. -/
  other : ∀ name, name ∉ params →
    Environment.lookup (frame :: env) name = env.lookup name ∧
    Environment.contains (frame :: env) name = env.contains name ∧
    Environment.find? (frame :: env) name = (env.find? name).map (· + 1)

theorem Environment.find?_cons (frame : Frame) (env : Environment) (name : String) :
    find? (frame :: env) name =
      if name ∈ frame.names then some 0 else (env.find? name).map (· + 1) := by
  rw [find?, List.findIdx?_cons, ← find?]
  cases hframe : frame.get? name with
  | some v => rw [if_pos (Frame.mem_names_of_get? hframe)]; rfl
  | none => rw [if_neg (Frame.get?_eq_none_iff.1 hframe)]; rfl

theorem isCallFrame_ofBindings (env : Environment) {params : List String} {args : List Value}
    (count : args.length = params.length) :
    IsCallFrame env params args (Frame.ofBindings (params.zip args)) := by
  have hnames := Frame.names_ofBindings_zip count
  have hmem (name : String) : name ∈ (Frame.ofBindings (params.zip args)).names ↔ name ∈ params := by
    rw [hnames, List.mem_eraseDups]
  refine ⟨hmem, ?_, ?_, fun name hname => ?_, fun name hname => ?_⟩
  · rw [hnames]
    exact nodup_eraseDups params
  · rw [hnames]
    exact pairwise_eraseDups params
  · cases hslot : slot params name with
    | none => exact absurd hname (slot_eq_none_iff.1 hslot)
    | some k =>
      -- The place counted from the end is the last position counted from the front, in both lists.
      have hk := slot_lt hslot
      have hvalue : args[params.length - 1 - k]? = some (args[params.length - 1 - k]) :=
        List.getElem?_eq_getElem (by omega)
      have hget : (env.extend (params.zip args)).get? name = some (args[params.length - 1 - k]) := by
        rw [env.get?_extend_zip count, hslot, ← hvalue, ← count]
        exact List.getElem?_reverse (by omega)
      refine ⟨_, _, .of_slot hslot, hvalue, ?_, ?_⟩
      · rw [← Environment.extend, Environment.lookup, hget]
      · rw [Environment.find?_cons, if_pos ((hmem name).2 hname)]
  · have hget : (env.extend (params.zip args)).get? name = env.get? name := by
      rw [env.get?_extend_zip count, slot_eq_none_iff.2 hname]
    have hfind : Environment.find? (Frame.ofBindings (params.zip args) :: env) name =
        (env.find? name).map (· + 1) := by
      rw [Environment.find?_cons, if_neg (mt (hmem name).1 hname)]
    refine ⟨?_, ?_, hfind⟩
    · rw [← Environment.extend, Environment.lookup, hget, Environment.lookup]
    · rw [Environment.contains, hfind, Option.isSome_map, Environment.contains]

/-- A call with as many arguments as there are parameters runs in a new frame in front of the captured environment. -/
theorem Environment.bindArgs_eq_ok (env : Environment) {params : List String} {args : List Value}
    (count : args.length = params.length) :
    ∃ frame, env.bindArgs params args = .ok (frame :: env) ∧ IsCallFrame env params args frame := by
  refine ⟨_, ?_, isCallFrame_ofBindings env count⟩
  rw [bindArgs, if_pos count, extend]

/-! ## Closures of built lambdas -/

/-- Whatever the arguments, each parameter means the argument at its own position. -/
def BindsInOrder (env : Environment) (params : List String) : Prop :=
  ∀ args : List Value, args.length = params.length →
    ∃ scope, env.bindArgs params args = .ok scope ∧
      ∀ (i : Nat) (name : String) (v : Value), params[i]? = some name → args[i]? = some v →
        scope.lookup name = .ok v

theorem bindsInOrder_of_nodup (env : Environment) {params : List String} (nodup : params.Nodup) :
    BindsInOrder env params := by
  intro args count
  obtain ⟨frame, hbind, hframe⟩ := env.bindArgs_eq_ok count
  refine ⟨frame :: env, hbind, fun i name v hname hv => ?_⟩
  -- The last position of a name that is not repeated is its only one.
  obtain ⟨last, w, hlast, hw, hlookup, -⟩ := hframe.param name (List.mem_of_getElem? hname)
  have hi : i = last := (LastAt.of_nodup nodup hname).unique hlast
  rw [← hi, hv] at hw
  rw [hlookup, Option.some.inj hw]

/-- Expressions that the builder makes, and closures made from its lambdas. -/
def builtLambdas : RunInvariant :=
  { builtPrograms with
    closure := fun _ params body _ => Buildable (.lambda params body)
    lambda := fun h _ => h
    call := fun h _ => h.lambda }

/-- A call binds its arguments in one new frame. There each parameter means the argument at its last position, and
is listed once, where it first occurs; every other name means what it means in the captured environment. With
another number of arguments than of parameters, repeated ones counted, the call is refused. The parameters of
a lambda that the builder makes are bound to the arguments in order, and so are those of every closure
that a run of such a program returns. -/
theorem arguments_are_bound_by_position (env : Environment) (params : List String) (args : List Value) :
    (args.length = params.length → ∃ frame, env.bindArgs params args = .ok (frame :: env) ∧
      IsCallFrame env params args frame ∧ (frame :: env).length = env.length + 1) ∧
    (args.length ≠ params.length → ∃ fault, env.bindArgs params args = .error fault ∧
      fault = .arity (Value.closureSource params) params.length args.length ∧ fault.kind = .arity) ∧
    (∀ body, Buildable (.lambda params body) → BindsInOrder env params) ∧
    (∀ frames e next v after, Buildable e →
      env.AllClosures (fun _ ps body _ => Buildable (.lambda ps body)) →
      eval frames e env next = .ok v after →
      v.AllClosures fun _ ps _ captured => BindsInOrder captured ps) := by
  refine ⟨fun count => ?_, fun count => ?_, fun body h => ?_, fun frames e next v after he henv hrun => ?_⟩
  · obtain ⟨frame, hbind, hframe⟩ := env.bindArgs_eq_ok count
    exact ⟨frame, hbind, hframe, List.length_cons⟩
  · refine ⟨_, ?_, rfl, rfl⟩
    rw [Environment.bindArgs, if_neg count]
  · exact bindsInOrder_of_nodup env h.nodup_params
  · have hvalue : v.AllClosures builtLambdas.closure := builtLambdas.allClosures_of_eval hrun he henv
    exact hvalue.imp fun _ _ _ captured h => bindsInOrder_of_nodup captured h.nodup_params

/-- A repeated parameter, too few arguments for it, and a closure that the builder's lambda comes to. -/
theorem arguments_of_three_calls :
    let params := ["x", "y", "x"]
    let args : List Value := [.int 1, .int 2, .int 3]
    let env : Environment := [[("z", .nil)]]
    let e : Expr := .lambda ["x", "y"] (.literal "y")
    let v : Value := .closure 7 ["x", "y"] (.literal "y") env
    args.length = params.length ∧
      env.bindArgs params args = .ok ([("x", .int 3), ("y", .int 2)] :: env) ∧
      IsCallFrame env params args [("x", .int 3), ("y", .int 2)] ∧
      [Value.int 1, .int 2].length ≠ params.length ∧
      (∃ fault, env.bindArgs params [.int 1, .int 2] = .error fault ∧ fault.kind = .arity) ∧
      Buildable e ∧ BindsInOrder env ["x", "y"] ∧
      env.AllClosures (fun _ ps body _ => Buildable (.lambda ps body)) ∧
      eval 1 e env 7 = .ok v 8 ∧ v.AllClosures fun _ ps _ captured => BindsInOrder captured ps := by
  intro params args env e v
  have hbind : env.bindArgs params args = .ok ([("x", .int 3), ("y", .int 2)] :: env) := by rfl
  have hbuilt : Buildable e :=
    ⟨.unlimited, .list [.atom "lambda", .list [.atom "x", .atom "y"], .atom "y"], by cbv⟩
  have henv : env.AllClosures fun _ ps body _ => Buildable (.lambda ps body) := by
    simp [Environment.allClosures_iff, env]
  have hrun : eval 1 e env 7 = .ok v 8 := by rfl
  obtain ⟨frame, hframe, hcall, -⟩ := (arguments_are_bound_by_position env params args).1 rfl
  obtain ⟨fault, herror, -, hkind⟩ :=
    (arguments_are_bound_by_position env params [.int 1, .int 2]).2.1 (by decide)
  obtain ⟨-, -, hlambda, hclosures⟩ := arguments_are_bound_by_position env ["x", "y"] []
  have hsame : frame = [("x", .int 3), ("y", .int 2)] := by
    rw [hbind] at hframe
    cases hframe
    rfl
  rw [hsame] at hcall
  exact ⟨rfl, hbind, hcall, by decide, ⟨fault, herror, hkind⟩, hbuilt, hlambda _ hbuilt, henv, hrun,
    hclosures 1 e 7 v 8 hbuilt henv hrun⟩

end MiniLisp
