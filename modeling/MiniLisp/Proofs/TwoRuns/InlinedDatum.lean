import MiniLisp.Proofs.Reachability.NewCells
import MiniLisp.Proofs.Scopes.RelatedFrames
import MiniLisp.Proofs.TwoRuns.Worlds

/-!
A quoted datum as an argument. Passing it is the same as writing it in place of the parameter
(`quoted_argument_is_written_in_place`): one run finds the value of the datum in the frame of the parameter,
as long as no other frame hides it, and the other makes the value anew where the parameter stood.
-/

namespace MiniLisp

/-! ## Expressions -/

namespace Expr

mutual

/-- The expression with a quoted datum in place of a name, wherever the name is free in it. -/
def substitute (x : String) (d : Expr) : Expr → Expr
  | .literal text => if text = x then .quote d else .literal text
  | .identifier name => if name = x then .quote d else .identifier name
  | .quote e => .quote e
  | .cond branches => .cond (substituteBranches x d branches)
  | .branch question answer => .branch (substitute x d question) (substitute x d answer)
  | .lambda params body =>
    if x ∈ params then .lambda params body else .lambda params (substitute x d body)
  | .app func args => .app (substitute x d func) (substituteAll x d args)
  | .empty => .empty

/-- The branches of a conditional with a quoted datum in place of a name. -/
def substituteBranches (x : String) (d : Expr) : List (Expr × Expr) → List (Expr × Expr)
  | [] => []
  | (question, answer) :: branches =>
    (substitute x d question, substitute x d answer) :: substituteBranches x d branches

/-- Several expressions with a quoted datum in place of a name. -/
def substituteAll (x : String) (d : Expr) : List Expr → List Expr
  | [] => []
  | e :: es => substitute x d e :: substituteAll x d es

end

theorem substituteBranches_eq (x : String) (d : Expr) (branches : List (Expr × Expr)) :
    substituteBranches x d branches =
      branches.map fun b => (substitute x d b.1, substitute x d b.2) := by
  induction branches with
  | nil => rfl
  | cons b branches ih => rw [substituteBranches, ih, List.map_cons]

theorem substituteAll_eq (x : String) (d : Expr) (es : List Expr) :
    substituteAll x d es = es.map (substitute x d) := by
  induction es with
  | nil => rfl
  | cons e es ih => rw [substituteAll, ih, List.map_cons]

end Expr

/-- A datum to be written in place of a name. -/
structure Inlining where
  name : String
  datum : Expr
  found : Datum
  isDatum : datum.datum .unlimited = .ok found

namespace Inlining

/-- An expression in the second run. The datum is written in it if the name is open there: if it means the
parameter and no other binding. -/
def within (r : Inlining) (isOpen : Bool) (e : Expr) : Expr :=
  if isOpen then .substitute r.name r.datum e else e

/-- Whether the name is open in a scope with these names, if it is open around it. -/
def opens (r : Inlining) (names : List String) (isOpen : Bool) : Bool :=
  isOpen && decide (r.name ∉ names)

variable (r : Inlining) (isOpen : Bool)

theorem within_cond (branches : List (Expr × Expr)) :
    r.within isOpen (.cond branches) =
      .cond (branches.map fun b => (r.within isOpen b.1, r.within isOpen b.2)) := by
  cases isOpen with
  | false => simp [within]
  | true => simp only [within, if_true, Expr.substitute, Expr.substituteBranches_eq]

theorem within_app (func : Expr) (args : List Expr) :
    r.within isOpen (.app func args) = .app (r.within isOpen func) (args.map (r.within isOpen)) := by
  cases isOpen with
  | false =>
    have hsame : r.within false = id := rfl
    rw [hsame, List.map_id, id, id]
  | true => simp [within, Expr.substitute, Expr.substituteAll_eq]

theorem within_lambda (params : List String) (body : Expr) :
    r.within isOpen (.lambda params body) =
      .lambda params (r.within (r.opens params isOpen) body) := by
  cases isOpen with
  | false => rfl
  | true =>
    rw [opens, Bool.true_and]
    by_cases h : r.name ∈ params
    · simp [within, Expr.substitute, h]
    · simp [within, Expr.substitute, h]

theorem within_of_ne {e : Expr} {a : Atom} (he : e.atom? = some a)
    (hname : a.name = r.name → isOpen = false) : r.within isOpen e = e := by
  cases isOpen with
  | false => rfl
  | true =>
    have hne : a.name ≠ r.name := fun h => nomatch hname h
    cases e with
    | literal text =>
      cases he
      exact if_neg hne
    | identifier name =>
      cases he
      exact if_neg hne
    | _ => cases he

theorem within_of_eq {e : Expr} {a : Atom} (he : e.atom? = some a) (hname : a.name = r.name) :
    r.within true e = .quote r.datum := by
  cases e with
  | literal text =>
    cases he
    exact if_pos hname
  | identifier name =>
    cases he
    exact if_pos hname
  | _ => cases he

/-- In the frame of a call the parameters are bound and nothing else. -/
theorem opens_names (r : Inlining) {params : List String} {args : List Value}
    (count : args.length = params.length) (isOpen : Bool) :
    r.opens (Frame.ofBindings (params.zip args)).names isOpen = r.opens params isOpen := by
  rw [opens, opens, Frame.names_ofBindings_zip count]
  simp only [List.mem_eraseDups]

end Inlining

/-! ## Values -/

/-- Environments of the two runs, with related values. The first has the frame of the parameter besides, and
the name is open if this is the frame that it is found in. -/
inductive Environment.Inlined (r : Inlining) (R : Value → Value → Prop) :
    Bool → Environment → Environment → Prop
  | nil : Environment.Inlined r R false [] []
  | parameter {next : Nat} {env env' : Environment} (henv : Environment.Inlined r R false env env') :
      Environment.Inlined r R true ([(r.name, (r.found.place next).1)] :: env) env'
  | cons {isOpen : Bool} {frame frame' : Frame} {env env' : Environment}
      (hframe : Frame.Related R frame frame') (henv : Environment.Inlined r R isOpen env env') :
      Environment.Inlined r R (r.opens frame.names isOpen) (frame :: env) (frame' :: env')

/-- Values of the two runs: equal but for their cells, up to the datum in the bodies of closures and the frame
that it takes the place of. -/
inductive Value.Inlined (r : Inlining) (cells : Nat → Nat → Prop) : Value → Value → Prop
  | plain {v : Value} (h : v.cell? = none) : Value.Inlined r cells v v
  | pair {c d : Nat} {head head' tail tail' : Value} (hhead : Value.Inlined r cells head head')
      (htail : Value.Inlined r cells tail tail') :
      Value.Inlined r cells (.pair c head tail) (.pair d head' tail')
  | closure {c d : Nat} {params : List String} {body : Expr} {isOpen : Bool}
      {env env' : Environment} (hcells : cells c d)
      (henv : Environment.Inlined r (Value.Inlined r cells) isOpen env env') :
      Value.Inlined r cells (.closure c params body env)
        (.closure d params (r.within (r.opens params isOpen) body) env')

variable {r : Inlining} {R S : Value → Value → Prop}

namespace Environment.Inlined

variable {isOpen : Bool} {env env' : Environment}

theorem imp (h : Environment.Inlined r R isOpen env env')
    (himp : ∀ frame ∈ env, ∀ binding ∈ frame, ∀ v, R binding.2 v → S binding.2 v) :
    Environment.Inlined r S isOpen env env' := by
  induction h with
  | nil => exact .nil
  | parameter _ ih =>
    obtain ⟨-, hrest⟩ := List.forall_mem_cons.1 himp
    exact .parameter (ih hrest)
  | cons hframe _ ih =>
    obtain ⟨hfirst, hrest⟩ := List.forall_mem_cons.1 himp
    exact .cons (hframe.imp hfirst) (ih hrest)

/-- An environment that both runs start with. -/
theorem refl {env : Environment} (h : ∀ frame ∈ env, ∀ binding ∈ frame, R binding.2 binding.2) :
    Environment.Inlined r R false env env := by
  induction env with
  | nil => exact .nil
  | cons frame env ih =>
    obtain ⟨hframe, hrest⟩ := List.forall_mem_cons.1 h
    have hcons : Environment.Inlined r R (r.opens frame.names false) (frame :: env) (frame :: env) :=
      .cons (.refl hframe) (ih hrest)
    exact hcons

/-- Where the name is open it means the datum. -/
theorem get?_of_open (h : Environment.Inlined r R true env env') :
    ∃ next, env.get? r.name = some (r.found.place next).1 := by
  generalize hopen : true = isOpen at h
  induction h with
  | nil => cases hopen
  | @parameter next =>
    refine ⟨next, ?_⟩
    rw [Environment.get?_cons, Frame.get?_cons, if_pos rfl, Option.some_or]
  | @cons isOpen frame _ _ _ hframe _ ih =>
    obtain ⟨hinner, hnames⟩ := Bool.and_eq_true_iff.1 hopen.symm
    obtain ⟨next, hnext⟩ := ih hinner.symm
    refine ⟨next, ?_⟩
    cases hfirst : frame.get? r.name with
    | some v => exact absurd (Frame.mem_names_of_get? hfirst) (of_decide_eq_true hnames)
    | none => rw [Environment.get?_cons, hfirst, Option.none_or, hnext]

/-- Every other name, and this one where it is not open, means the same in both runs. -/
theorem get? (h : Environment.Inlined r R isOpen env env') {name : String}
    (hname : name = r.name → isOpen = false) :
    Option.Rel R (env.get? name) (env'.get? name) := by
  induction h with
  | nil => exact .none
  | parameter _ ih =>
    have hother : name ≠ r.name := fun h => nomatch hname h
    rw [Environment.get?_cons, Frame.get?_cons, if_neg hother, Frame.get?_nil, Option.none_or]
    exact ih fun h => absurd h hother
  | @cons isOpen frame frame' env env' hframe _ ih =>
    have hbound := hframe.get? name
    rw [Environment.get?_cons, Environment.get?_cons]
    cases hfirst : frame.get? name with
    | some v =>
      rw [hfirst] at hbound
      generalize frame'.get? name = found at hbound ⊢
      cases hbound with
      | some hvalue => exact .some hvalue
    | none =>
      rw [hfirst] at hbound
      generalize frame'.get? name = found at hbound ⊢
      cases hbound
      refine ih fun h => ?_
      -- The frame does not bind the name, so it is not the one that hides it.
      rw [h] at hfirst
      have hopens := hname h
      rwa [Inlining.opens, decide_eq_true (Frame.get?_eq_none_iff.1 hfirst), Bool.and_true] at hopens

/-- The scope of a call. -/
theorem extend (h : Environment.Inlined r R isOpen env env') {params : List String}
    {args args' : List Value} (hargs : List.Forall₂ R args args')
    (count : args.length = params.length) :
    Environment.Inlined r R (r.opens params isOpen) (env.extend (params.zip args))
      (env'.extend (params.zip args')) := by
  have hscope := h.cons (.ofBindings params hargs)
  rwa [r.opens_names count] at hscope

end Environment.Inlined

/-! ## Correspondence -/

namespace Value.Inlined

variable {cells : Nat → Nat → Prop} {v w : Value}

theorem imp {cells' : Nat → Nat → Prop} (himp : ∀ c d, cells c d → cells' c d)
    (h : Value.Inlined r cells v w) : Value.Inlined r cells' v w := by
  induction v generalizing w with
  | pair c head tail ihhead ihtail =>
    cases h with
    | plain hplain => cases hplain
    | pair hhead htail => exact .pair (ihhead hhead) (ihtail htail)
  | closure c params body env ih =>
    cases h with
    | plain hplain => cases hplain
    | closure hcells henv =>
      exact .closure (himp _ _ hcells) (henv.imp fun frame hframe binding hbinding _ =>
        ih frame hframe binding hbinding)
  | _ =>
    cases h with
    | plain hplain => exact .plain hplain

theorem refl (h : v.AllClosures fun cell _ _ _ => cells cell cell) : Value.Inlined r cells v v := by
  induction v with
  | pair c head tail ihhead ihtail =>
    obtain ⟨hhead, htail⟩ := Value.allClosures_pair.1 h
    exact .pair (ihhead hhead) (ihtail htail)
  | closure c params body env ih =>
    obtain ⟨hcell, henv⟩ := Value.allClosures_closure.1 h
    have henv' : Environment.Inlined r (Value.Inlined r cells) false env env :=
      .refl fun frame hframe binding hbinding => ih frame hframe binding hbinding
        (Environment.allClosures_iff.1 henv frame hframe binding hbinding)
    exact .closure hcell henv'
  | _ => exact .plain rfl

theorem alike {world : World} (h : Value.Inlined r world.cells v w) : world.Alike v w := by
  induction v generalizing w with
  | pair c head tail ihhead ihtail =>
    cases h with
    | plain hplain => cases hplain
    | pair hhead htail => exact .pair (ihhead hhead) (ihtail htail)
  | closure =>
    cases h with
    | plain hplain => cases hplain
    | closure hcells => exact .closure hcells rfl
  | _ =>
    cases h with
    | plain hplain => exact .plain hplain

/-- Values without closures are equal, wherever their pairs were made. -/
theorem isEqual (h : Value.Inlined r cells v w) (hclosures : v.AllClosures fun _ _ _ _ => False) :
    v.isEqual w = true := by
  induction v generalizing w with
  | pair c head tail ihhead ihtail =>
    obtain ⟨hh, ht⟩ := Value.allClosures_pair.1 hclosures
    cases h with
    | plain hplain => cases hplain
    | pair hhead htail => rw [Value.isEqual, ihhead hhead hh, ihtail htail ht, Bool.and_true]
  | closure => exact (Value.allClosures_closure.1 hclosures).1.elim
  | _ =>
    cases h with
    | plain => exact Value.isEqual_refl _

end Value.Inlined

namespace Datum

mutual

/-- Values of one datum are the same but for their cells. -/
theorem place_inlined {cells : Nat → Nat → Prop} : ∀ (d : Datum) (m n : Nat),
    Value.Inlined r cells (d.place m).1 (d.place n).1
  | .int k, _, _ => .plain rfl
  | .bool b, _, _ => .plain rfl
  | .symbol name, _, _ => .plain rfl
  | .list items, m, n => by
    simp only [place]
    exact placeItems_inlined items m n

theorem placeItems_inlined {cells : Nat → Nat → Prop} : ∀ (items : List Datum) (m n : Nat),
    Value.Inlined r cells (placeItems items m).1 (placeItems items n).1
  | [], _, _ => .plain rfl
  | item :: items, m, n => by
    simp only [placeItems]
    exact .pair (place_inlined item m n) (placeItems_inlined items (item.place m).2 (item.place n).2)

end

end Datum

/-! ## Runs -/

namespace Inlining

variable (r : Inlining)

/-- An expression and the same with the datum written in it, if the name is open. -/
def Code (w : World) (e : Expr) (env : Environment) (e' : Expr) (env' : Environment) : Prop :=
  ∃ isOpen, e' = r.within isOpen e ∧
    Environment.Inlined r (Value.Inlined r w.cells) isOpen env env'

/-- What is asked of the parts of such expressions. -/
abbrev Parts (w : World) (env env' : Environment) (e e' : Expr) : Prop :=
  w.Parts (fun w => Value.Inlined r w.cells) r.Code env env' e e'

variable {r} {w : World} {isOpen : Bool} {env env' : Environment}

/-- An atom that means the same in both runs. -/
theorem parts_atom (henv : Environment.Inlined r (Value.Inlined r w.cells) isOpen env env') {e : Expr}
    {a : Atom} (he : e.atom? = some a) (hname : a.name = r.name → isOpen = false) :
    r.Parts w env env' e e := by
  have simple := Expr.isCompound_of_atom he
  have hget := henv.get? hname
  cases hv : env.get? a.name with
  | some v =>
    rw [hv] at hget
    generalize hv' : env'.get? a.name = found at hget
    cases hget with
    | some hvalue =>
      exact .ends simple simple (evaluates_atom_ok he (Environment.valueOf_of_bound hv) _)
        (evaluates_atom_ok he (Environment.valueOf_of_bound hv') _) (.ok (.refl w) rfl rfl hvalue)
  | none =>
    rw [hv] at hget
    generalize hv' : env'.get? a.name = found at hget
    cases hget
    have hleft := Environment.valueOf_of_unbound hv
    have hright := Environment.valueOf_of_unbound hv'
    cases hvalue : Environment.valueOf [] a with
    | ok v =>
      exact .ends simple simple (evaluates_atom_ok he (hleft.trans hvalue) _)
        (evaluates_atom_ok he (hright.trans hvalue) _)
        (.ok (.refl w) rfl rfl (.plain (plain_of_valueOf_nil hvalue)))
    | error fault =>
      exact .ends simple simple (evaluates_atom_error he (hleft.trans hvalue) _)
        (evaluates_atom_error he (hright.trans hvalue) _) (.error rfl)

/-- The atom that the datum takes the place of. -/
theorem parts_datum (henv : Environment.Inlined r (Value.Inlined r w.cells) true env env') {e : Expr}
    {a : Atom} (he : e.atom? = some a) (hname : a.name = r.name) :
    r.Parts w env env' e (.quote r.datum) := by
  have simple := Expr.isCompound_of_atom he
  obtain ⟨next, hnext⟩ := henv.get?_of_open
  rw [← hname] at hnext
  have later := w.later_move (Nat.le_refl _) (r.found.le_place w.right)
  exact .ends simple rfl (evaluates_atom_ok he (Environment.valueOf_of_bound hnext) _)
    (.quote r.isDatum) (.ok later rfl rfl (r.found.place_inlined _ _))

theorem Code.parts {e e' : Expr} (h : r.Code w e env e' env') : r.Parts w env env' e e' := by
  obtain ⟨isOpen, rfl, henv⟩ := h
  -- An atom is written over only if it is the name and the name is open.
  have hatom {a : Atom} (he : e.atom? = some a) : r.Parts w env env' e (r.within isOpen e) := by
    by_cases hname : a.name = r.name → isOpen = false
    · rw [r.within_of_ne isOpen he hname]
      exact parts_atom henv he hname
    · obtain ⟨hmeant, hopen⟩ := Classical.not_imp.1 hname
      obtain rfl : isOpen = true := by simpa using hopen
      rw [r.within_of_eq he hmeant]
      exact parts_datum henv he hmeant
  cases e with
  | literal text => exact hatom rfl
  | identifier name => exact hatom rfl
  | quote d =>
    have hsame : r.within isOpen (.quote d) = .quote d := by cases isOpen <;> rfl
    rw [hsame]
    cases hd : d.datum .unlimited with
    | ok found =>
      have later := w.later_move (found.le_place w.left) (found.le_place w.right)
      exact .ends rfl rfl (.quote hd) (.quote hd) (.ok later rfl rfl (found.place_inlined _ _))
    | error fault => exact .ends rfl rfl (.quoteFails hd) (.quoteFails hd) (.error rfl)
  | cond branches =>
    rw [within_cond]
    refine .cond (List.forall₂_map_right_iff.2 (List.forall₂_same.2 fun b _ => ?_))
    exact ⟨⟨isOpen, rfl, henv⟩, isOpen, rfl, henv⟩
  | lambda params body =>
    rw [within_lambda]
    have hcells : w.make.cells w.left w.right := .inr ⟨rfl, rfl⟩
    have henv' := henv.imp fun _ _ _ _ _ hv => hv.imp fun _ _ => (World.later_make w).cells
    exact .ends rfl rfl .lambda .lambda (.ok w.later_make rfl rfl (.closure hcells henv'))
  | app func args =>
    rw [within_app]
    refine .app ⟨isOpen, rfl, henv⟩ (List.forall₂_map_right_iff.2 (List.forall₂_same.2 fun a _ => ?_))
    exact ⟨isOpen, rfl, henv⟩
  | empty =>
    have hsame : r.within isOpen .empty = .empty := by cases isOpen <;> rfl
    rw [hsame]
    exact .ends rfl rfl .empty .empty (.error rfl)
  | branch question answer =>
    -- Neither run looks into a bare branch.
    have hsame : r.within isOpen (.branch question answer) =
        .branch (r.within isOpen question) (r.within isOpen answer) := by cases isOpen <;> rfl
    rw [hsame]
    exact .ends rfl rfl .branch .branch (.error rfl)

/-- The two runs correspond at every step. -/
def correspondence (r : Inlining) : Correspondence where
  values w := Value.Inlined r w.cells
  code := r.Code
  values_later later _ _ h := h.imp fun _ _ => later.cells
  code_later later _ _ _ _ := by
    rintro ⟨isOpen, rfl, henv⟩
    exact ⟨isOpen, rfl, henv.imp fun _ _ _ _ _ hv => hv.imp fun _ _ => later.cells⟩
  alike h := h.alike
  plain h := .plain h
  pair hhead htail := .pair hhead htail
  tail h := by
    cases h with
    | plain hplain => cases hplain
    | pair _ htail => exact htail
  call h hargs count _ := by
    cases h with
    | plain hplain => cases hplain
    | closure _ henv => exact ⟨_, rfl, henv.extend hargs count⟩
  parts h := h.parts

/-- The call comes to what the body comes to in the scope of the parameter. -/
theorem evaluates_call_iff (r : Inlining) {body : Expr} {env : Environment} {next : Nat}
    {o : Outcome Value} :
    Evaluates (.app (.lambda [r.name] body) [.quote r.datum]) env next o ↔
      Evaluates body ([(r.name, (r.found.place (next + 1)).1)] :: env) (r.found.place (next + 1)).2
        o := by
  constructor
  · intro h
    cases h with
    | headFails hfunc => cases hfunc
    | argFails hfunc hargs =>
      cases hargs with
      | headFails h =>
        cases h with
        | quoteFails hd => cases hd.symm.trans r.isDatum
      | tailFails _ hrest => cases hrest
    | app hfunc hargs happly =>
      cases hfunc
      cases hargs with
      | cons h hrest =>
        cases hrest
        cases h with
        | quote hd =>
          cases hd.symm.trans r.isDatum
          cases happly with
          | closure _ h => exact h
          | closureCount count => exact absurd rfl count
          | uncallable h => cases h
  · intro h
    exact .app .lambda (.cons (.quote r.isDatum) .nil) (.closure rfl h)

/-- The two runs at their start: the first has made the closure and the datum already. -/
def start (r : Inlining) (next : Nat) : World where
  left := (r.found.place (next + 1)).2
  right := next
  cells c d := c = d ∧ c < next
  left_lt h := Nat.lt_of_lt_of_le (Nat.lt_succ_of_lt h.2) (r.found.le_place (next + 1))
  right_lt h := h.1 ▸ h.2
  cells_iff := by
    rintro a b _ _ ⟨rfl, -⟩ ⟨rfl, -⟩
    exact Iff.rfl

end Inlining

/-! ## Outcomes -/

/-- Values that are equal up to the datum in the bodies of closures: of one kind, and if there are no closures
in them equal to each other. Each closure of the one corresponds to one of the other. -/
structure EqualUpToDatum (r : Inlining) (v w : Value) : Prop where
  inlined : ∃ cells : Nat → Nat → Prop,
    (∀ a b c d, cells a c → cells b d → (a = b ↔ c = d)) ∧ Value.Inlined r cells v w
  kind : v.kind = w.kind
  equal : (∀ cell params body env, ¬ v.Reaches (.closure cell params body env)) →
    v.isEqual w = true

/-- Outcomes with such values, or with faults of one kind. -/
inductive SameUpToDatum (r : Inlining) : Outcome Value → Outcome Value → Prop
  | value {v w : Value} {m n : Nat} (h : EqualUpToDatum r v w) : SameUpToDatum r (.ok v m) (.ok w n)
  | fault {f g : Fault} {m n : Nat} (kind : f.kind = g.kind) :
      SameUpToDatum r (.error f m) (.error g n)

/-- Passing a quoted datum as an argument is the same as writing it in place of the parameter: both ways end
or neither does, and they end with values that are equal up to the datum in the bodies of closures, or
with faults of one kind. -/
theorem quoted_argument_is_written_in_place (r : Inlining) (body : Expr) {env : Environment} {next : Nat}
    (henv : env.AllClosures fun cell _ _ _ => cell < next) :
    let call : Expr := .app (.lambda [r.name] body) [.quote r.datum]
    let written := Expr.substitute r.name r.datum body
    ((∃ o, EndsWith call env next o) ↔ ∃ o, EndsWith written env next o) ∧
      ∀ o o', EndsWith call env next o → EndsWith written env next o' → SameUpToDatum r o o' := by
  intro call written
  have hclosed : Environment.Inlined r (Value.Inlined r (r.start next).cells) false env env :=
    .refl fun frame hframe binding hbinding => .refl fun cell params body captured hreaches =>
      ⟨rfl, henv cell params body captured ⟨frame, hframe, binding, hbinding, hreaches⟩⟩
  have hcode : r.correspondence.code (r.start next) body
      ([(r.name, (r.found.place (next + 1)).1)] :: env) written env :=
    ⟨true, rfl, .parameter hclosed⟩
  have hcall (o : Outcome Value) : EndsWith call env next o ↔
      EndsWith body ([(r.name, (r.found.place (next + 1)).1)] :: env) (r.start next).left o := by
    rw [endsWith_iff_evaluates, endsWith_iff_evaluates]
    exact r.evaluates_call_iff
  obtain ⟨htogether, hsame⟩ := Correspondence.ends hcode
  simp only [hcall]
  refine ⟨htogether, fun o o' ho ho' => ?_⟩
  cases hsame o o' ho ho' with
  | @ok w _ _ _ _ _ _ _ h =>
    exact .value ⟨⟨w.cells, fun _ _ _ _ => w.cells_iff, h⟩, h.alike.kind, h.isEqual⟩
  | error hkind => exact .fault hkind

/-- A list in place of a name: handed to a closure of the environment with a parameter of that name, compared
with a copy of itself, and kept by a closure that leaves its scope, in which the name is also quoted. -/
theorem list_in_an_escaping_closure :
    let r : Inlining := ⟨"x", .app (.literal "1") [.literal "a"], .list [.int 1, .symbol "a"], rfl⟩
    let x : Expr := .literal "x"
    let kept (e : Expr) : Expr := .app (.literal "cons") [e, .quote x]
    let body (e : Expr) : Expr := .app (.literal "cons")
      [.app (.literal "eq?") [.app (.literal "f") [e], e], .lambda ["y"] (kept e)]
    let env : Environment := [[("f", .closure 3 ["x"] x [])]]
    let parameter : Frame := [("x", .pair 7 (.int 1) (.pair 6 (.symbol "a") .nil))]
    let first := .ok (.pair 9 (.bool true) (.closure 8 ["y"] (kept x) (parameter :: env))) 10
    let second :=
      .ok (.pair 10 (.bool true) (.closure 9 ["y"] (kept (.quote r.datum)) env)) 11
    (env.AllClosures fun cell _ _ _ => cell < 5) ∧
      EndsWith (.app (.lambda ["x"] (body x)) [.quote r.datum]) env 5 first ∧
      Expr.substitute "x" r.datum (body x) = body (.quote r.datum) ∧
      EndsWith (body (.quote r.datum)) env 5 second ∧ SameUpToDatum r first second := by
  intro r x kept body env parameter first second
  have henv : env.AllClosures fun cell _ _ _ => cell < 5 := by
    refine Environment.allClosures_iff.2 fun frame hframe binding hbinding => ?_
    obtain rfl := List.mem_singleton.1 hframe
    obtain rfl := List.mem_singleton.1 hbinding
    refine Value.allClosures_closure.2 ⟨by decide, Environment.allClosures_iff.2 ?_⟩
    simp
  have hrun : eval 12 (.app (.lambda ["x"] (body x)) [.quote r.datum]) env 5 = first := rfl
  have hrun' : eval 12 (body (.quote r.datum)) env 5 = second := rfl
  have hfirst := EndsWith.of_eval hrun trivial
  have hsecond := EndsWith.of_eval hrun' trivial
  exact ⟨henv, hfirst, rfl, hsecond,
    (quoted_argument_is_written_in_place r (body x) henv).2 first second hfirst hsecond⟩

end MiniLisp
