import Mathlib.Data.List.Nodup
import MiniLisp.Proofs.Building.Failures
import MiniLisp.Proofs.Building.Grammar

/-!
What can be wrong with a program and where. A place in a program is the list of positions that lead there, and
places are in the order of their lists: a form comes before its parts, and each part before the next one.
The builder fails exactly if some form is malformed, and reports the first one (`Expr.build_reports`).
-/

namespace MiniLisp

/-! ## Malformed forms -/

/-- What an S-expression has to be where it stands. -/
inductive Role where
  | program
  /-- A clause of a conditional. -/
  | clause
  /-- The parameters of a lambda. -/
  | params
  /-- One parameter of a lambda. -/
  | param
  deriving DecidableEq

/-- The special form that these elements make. -/
def Keyword.ofItems? (items : List SExpr) : Option Keyword :=
  items.head?.bind ofHead?

namespace Role

/-- What is wrong with a list of this length as a program, whatever its elements are. -/
def countFault? : Option Keyword → Nat → Option Fault
  | some .quote, count => if count = 2 then none else some .quoteShape
  | some .lambda, count => if count = 3 then none else some .lambdaShape
  | some .cond, _ => none
  | none, count => if count = 0 then some .emptyApplication else none

/-- What is wrong with an S-expression itself, whatever its parts are. -/
def fault? : Role → SExpr → Option Fault
  | .program, .atom _ => none
  | .program, .list items => countFault? (Keyword.ofItems? items) items.length
  | .clause, .atom text => some (.condClause (.atom text))
  | .clause, .list items => if items.length = 2 then none else some (.condClause (.list items))
  | .params, .atom text => some (.lambdaParams (.atom text))
  | .params, .list _ => none
  | .param, .atom _ => none
  | .param, .list items => some (.lambdaParam (.list items))

/-- What is found to be wrong at the end of a list. -/
def endFault? : Role → List SExpr → Option Fault
  | .params, items => if items.Nodup then none else some (.duplicateParam items)
  | .program, _ | .clause, _ | .param, _ => none

/-- What the element at this position has to be. Keywords and quoted data can be anything. -/
def ofPart? : Role → List SExpr → Nat → Option Role
  | .program, items, position =>
    match Keyword.ofItems? items with
    | some .quote => none
    | some .cond => if position = 0 then none else some .clause
    | some .lambda =>
      if position = 1 then some .params else if position = 2 then some .program else none
    | none => some .program
  | .clause, _, _ => some .program
  | .params, _, _ => some .param
  | .param, _, _ => none

theorem fault?_cons {head : SExpr} {keyword : Option Keyword} (h : Keyword.ofHead? head = keyword)
    (rest : List SExpr) :
    Role.program.fault? (.list (head :: rest)) = countFault? keyword (rest.length + 1) := by
  subst h
  rfl

end Role

/-- There is this fault at this place of an S-expression that has such a role. What is wrong at the end of a list
stands after its last element. -/
inductive Malformed : Role → SExpr → List Nat → Fault → Prop
  | here {role : Role} {node : SExpr} {fault : Fault} (h : role.fault? node = some fault) :
      Malformed role node [] fault
  | part {role inner : Role} {items : List SExpr} {position : Nat} {item : SExpr} {place : List Nat}
      {fault : Fault} (hitem : items[position]? = some item) (hrole : role.ofPart? items position = some inner)
      (h : Malformed inner item place fault) : Malformed role (.list items) (position :: place) fault
  | atEnd {role : Role} {items : List SExpr} {fault : Fault} (h : role.endFault? items = some fault) :
      Malformed role (.list items) [items.length] fault

/-- There is a fault at this place, and at no earlier one. -/
structure IsFirst (faults : List Nat → Fault → Prop) (place : List Nat) (fault : Fault) : Prop where
  isFault : faults place fault
  le_other : ∀ {other fault'}, faults other fault' → other = place ∨ List.Lex (· < ·) place other

/-! ## Steps that report what is first -/

section

variable {α β : Type} {faults later : List Nat → Fault → Prop} {place : List Nat} {fault : Fault}

/-- Faults of a part, at their places in the whole. -/
def FaultsAt (position : Nat) (faults : List Nat → Fault → Prop) (place : List Nat) (fault : Fault) : Prop :=
  ∃ inner, place = position :: inner ∧ faults inner fault

/-- The step fails if there are faults, and reports the first one. -/
structure Reports (step : Except Fault α) (faults : List Nat → Fault → Prop) : Prop where
  ok : ∀ a, step = .ok a → ∀ place fault, ¬ faults place fault
  error : ∀ fault, step = .error fault → ∃ place, IsFirst faults place fault

theorem IsFirst.inPart (h : IsFirst faults place fault) (position : Nat) :
    IsFirst (FaultsAt position faults) (position :: place) fault := by
  refine ⟨⟨place, rfl, h.isFault⟩, ?_⟩
  rintro other fault' ⟨inner, rfl, hinner⟩
  rcases h.le_other hinner with rfl | hlater
  · exact .inl rfl
  · exact .inr (.cons hlater)

namespace Reports

theorem of_ok (a : α) (h : ∀ place fault, ¬ faults place fault) : Reports (.ok a) faults :=
  ⟨fun _ _ => h, fun _ hok => nomatch hok⟩

theorem of_error (h : IsFirst faults place fault) : Reports (.error fault : Except Fault α) faults := by
  refine ⟨fun a herror => (nomatch herror), fun fault' herror => ?_⟩
  cases herror
  exact ⟨place, h⟩

theorem map {step : Except Fault α} (h : Reports step faults) (f : α → β) : Reports (f <$> step) faults := by
  cases step with
  | ok a => exact of_ok (f a) (h.ok a rfl)
  | error fault =>
    obtain ⟨place, hfirst⟩ := h.error fault rfl
    exact of_error hfirst

theorem inPart {step : Except Fault α} (h : Reports step faults) (position : Nat) :
    Reports step (FaultsAt position faults) := by
  refine ⟨fun a hok place fault => ?_, fun fault herror => ?_⟩
  · rintro ⟨inner, rfl, hinner⟩
    exact h.ok a hok inner fault hinner
  · obtain ⟨place, hfirst⟩ := h.error fault herror
    exact ⟨position :: place, hfirst.inPart position⟩

/-- A step and another one after it, if its faults come before those of the other one. -/
theorem bind {step : Except Fault α} {rest : α → Except Fault β} (h : Reports step faults)
    (hrest : ∀ a, step = .ok a → Reports (rest a) later)
    (hlater : ∀ place fault other fault', faults place fault → later other fault' →
      List.Lex (· < ·) place other) :
    Reports (step >>= rest) fun place fault => faults place fault ∨ later place fault := by
  cases step with
  | ok a =>
    -- The first step has found nothing, so all faults are later ones.
    have hnone := h.ok a rfl
    refine ⟨fun b hok place fault => ?_, fun fault herror => ?_⟩
    · rintro (hfault | hfault)
      · exact hnone place fault hfault
      · exact (hrest a rfl).ok b hok place fault hfault
    · obtain ⟨place, hfirst⟩ := (hrest a rfl).error fault herror
      refine ⟨place, .inr hfirst.isFault, ?_⟩
      rintro other fault' (hfault | hfault)
      · exact absurd hfault (hnone other fault')
      · exact hfirst.le_other hfault
  | error fault =>
    obtain ⟨place, hfirst⟩ := h.error fault rfl
    have hboth : IsFirst (fun place fault => faults place fault ∨ later place fault) place fault := by
      refine ⟨.inl hfirst.isFault, ?_⟩
      rintro other fault' (hfault | hfault)
      · exact hfirst.le_other hfault
      · exact .inr (hlater place fault other fault' hfirst.isFault hfault)
    exact of_error hboth

theorem congr {step : Except Fault α} (h : Reports step faults)
    (hiff : ∀ place fault, faults place fault ↔ later place fault) : Reports step later := by
  have heq : faults = later := funext fun place => funext fun fault => propext (hiff place fault)
  rwa [← heq]

end Reports

end

/-! ## Faults of parts -/

section

variable {role inner : Role} {node item : SExpr} {items : List SExpr} {place : List Nat} {fault : Fault}
  {start : Nat}

/-- There is this fault in one of several S-expressions of the same role, which stand at the positions from this
one on. -/
def MalformedAmong (role : Role) (start : Nat) (items : List SExpr) (place : List Nat) (fault : Fault) :
    Prop :=
  ∃ (k : Nat) (item : SExpr) (inner : List Nat),
    items[k]? = some item ∧ place = (start + k) :: inner ∧ Malformed role item inner fault

theorem not_malformedAmong_nil : ¬ MalformedAmong role start [] place fault := by
  rintro ⟨k, item, inner, hitem, -⟩
  cases hitem

theorem malformedAmong_cons :
    MalformedAmong role start (item :: items) place fault ↔
      FaultsAt start (Malformed role item) place fault ∨
        MalformedAmong role (start + 1) items place fault := by
  constructor
  · rintro ⟨k, part, inner, hitem, rfl, h⟩
    cases k with
    | zero =>
      cases hitem
      exact .inl ⟨inner, rfl, h⟩
    | succ k => exact .inr ⟨k, part, inner, hitem, by rw [Nat.add_right_comm]; rfl, h⟩
  · rintro (⟨inner, rfl, h⟩ | ⟨k, part, inner, hitem, rfl, h⟩)
    · exact ⟨0, item, inner, rfl, rfl, h⟩
    · exact ⟨k + 1, part, inner, hitem, by rw [Nat.add_right_comm]; rfl, h⟩

theorem lex_of_malformedAmong {position : Nat} {faults : List Nat → Fault → Prop} {other : List Nat}
    {fault' : Fault} (hplace : FaultsAt position faults place fault) (hlt : position < start)
    (hother : MalformedAmong role start items other fault') : List.Lex (· < ·) place other := by
  obtain ⟨inner, rfl, -⟩ := hplace
  obtain ⟨k, part, inner', -, rfl, -⟩ := hother
  exact .rel (Nat.lt_add_right k hlt)

/-- A step on an S-expression before one on the others. -/
theorem Reports.cons {α β : Type} {step : Except Fault α} {rest : α → Except Fault β}
    (h : Reports step (Malformed role item))
    (hrest : ∀ a, step = .ok a → Reports (rest a) (MalformedAmong role (start + 1) items)) :
    Reports (step >>= rest) (MalformedAmong role start (item :: items)) :=
  ((h.inPart start).bind hrest fun _ _ _ _ hplace hother =>
    lex_of_malformedAmong hplace (Nat.lt_succ_self start) hother).congr
    fun _ _ => malformedAmong_cons.symm

/-- The faults of a list that has none itself are those of its elements. -/
theorem malformed_list_iff (hfault : role.fault? (.list items) = none) (hend : role.endFault? items = none) :
    Malformed role (.list items) place fault ↔
      ∃ position part inner, items[position]? = some part ∧ role.ofPart? items position = some inner ∧
        FaultsAt position (Malformed inner part) place fault := by
  constructor
  · intro h
    cases h with
    | here h =>
      rw [hfault] at h
      cases h
    | @part _ inner _ position part place _ hitem hrole h =>
      exact ⟨position, part, inner, hitem, hrole, place, rfl, h⟩
    | atEnd h =>
      rw [hend] at h
      cases h
  · rintro ⟨position, part, inner, hitem, hrole, place, rfl, h⟩
    exact .part hitem hrole h

/-- They are those among all elements, if these have one role. -/
theorem malformed_list_iff_among (hfault : role.fault? (.list items) = none)
    (hpart : ∀ position, role.ofPart? items position = some inner) (hend : role.endFault? items = none) :
    Malformed role (.list items) place fault ↔ MalformedAmong inner 0 items place fault := by
  rw [malformed_list_iff hfault hend]
  constructor
  · rintro ⟨position, part, inner', hitem, hrole, place, rfl, h⟩
    cases (hpart position).symm.trans hrole
    exact ⟨position, part, place, hitem, by rw [Nat.zero_add], h⟩
  · rintro ⟨position, part, place, hitem, rfl, h⟩
    exact ⟨position, part, inner, hitem, hpart position, place, by rw [Nat.zero_add], h⟩

theorem IsFirst.here (h : role.fault? node = some fault) : IsFirst (Malformed role node) [] fault := by
  refine ⟨.here h, fun {other fault'} _ => ?_⟩
  cases other with
  | nil => exact .inl rfl
  | cons position other => exact .inr .nil

/-- A step that fails on the first of several S-expressions. -/
theorem Reports.cons_error {α : Type} (h : role.fault? item = some fault) :
    Reports (.error fault : Except Fault α) (MalformedAmong role start (item :: items)) := by
  have hstep : Reports ((.error fault : Except Fault α) >>= Except.ok)
      (MalformedAmong role start (item :: items)) :=
    (Reports.of_error (.here h)).cons fun a ha => nomatch ha
  exact hstep

section

variable {head : SExpr} {rest : List SExpr}

theorem malformed_application_iff (h : Keyword.ofHead? head = none) :
    Malformed .program (.list (head :: rest)) place fault ↔
      MalformedAmong .program 0 (head :: rest) place fault := by
  have hkeyword : Keyword.ofItems? (head :: rest) = none := h
  have hpart (position : Nat) : Role.program.ofPart? (head :: rest) position = some .program := by
    rw [Role.ofPart?, hkeyword]
  exact malformed_list_iff_among (Role.fault?_cons h rest) hpart rfl

theorem not_malformed_quote {datum : SExpr} (h : Keyword.ofHead? head = some .quote) :
    ¬ Malformed .program (.list [head, datum]) place fault := by
  have hkeyword : Keyword.ofItems? [head, datum] = some .quote := h
  rw [malformed_list_iff (Role.fault?_cons h [datum]) rfl]
  rintro ⟨position, part, inner, -, hrole, -⟩
  rw [Role.ofPart?, hkeyword] at hrole
  cases hrole

theorem malformed_cond_iff (h : Keyword.ofHead? head = some .cond) :
    Malformed .program (.list (head :: rest)) place fault ↔ MalformedAmong .clause 1 rest place fault := by
  have hkeyword : Keyword.ofItems? (head :: rest) = some .cond := h
  have hpart (position : Nat) :
      Role.program.ofPart? (head :: rest) position = if position = 0 then none else some .clause := by
    rw [Role.ofPart?, hkeyword]
  rw [malformed_list_iff (Role.fault?_cons h rest) rfl]
  constructor
  · rintro ⟨position, part, inner, hitem, hrole, place, rfl, h⟩
    rw [hpart] at hrole
    cases position with
    | zero => cases hrole
    | succ position =>
      cases hrole
      exact ⟨position, part, place, hitem, by rw [Nat.add_comm], h⟩
  · rintro ⟨k, part, place, hitem, rfl, h⟩
    exact ⟨k + 1, part, .clause, hitem, hpart (k + 1), place, by rw [Nat.add_comm], h⟩

theorem malformed_lambda_iff {params body : SExpr} (h : Keyword.ofHead? head = some .lambda) :
    Malformed .program (.list [head, params, body]) place fault ↔
      FaultsAt 1 (Malformed .params params) place fault ∨
        FaultsAt 2 (Malformed .program body) place fault := by
  have hkeyword : Keyword.ofItems? [head, params, body] = some .lambda := h
  have hpart (position : Nat) : Role.program.ofPart? [head, params, body] position =
      if position = 1 then some .params else if position = 2 then some .program else none := by
    rw [Role.ofPart?, hkeyword]
  rw [malformed_list_iff (Role.fault?_cons h [params, body]) rfl]
  constructor
  · rintro ⟨position, part, inner, hitem, hrole, h⟩
    rw [hpart] at hrole
    match position with
    | 0 => cases hrole
    | 1 =>
      cases hitem
      cases hrole
      exact .inl h
    | 2 =>
      cases hitem
      cases hrole
      exact .inr h
    | position + 3 => cases hitem
  · rintro (h | h)
    · exact ⟨1, params, .params, rfl, hpart 1, h⟩
    · exact ⟨2, body, .program, rfl, hpart 2, h⟩

end

theorem malformed_params_iff :
    Malformed .params (.list items) place fault ↔
      MalformedAmong .param 0 items place fault ∨
        place = [items.length] ∧ Role.params.endFault? items = some fault := by
  constructor
  · intro h
    cases h with
    | here h => cases h
    | @part _ _ _ position part place _ hitem hrole h =>
      cases hrole
      exact .inl ⟨position, part, place, hitem, by rw [Nat.zero_add], h⟩
    | atEnd h => exact .inr ⟨rfl, h⟩
  · rintro (⟨k, part, place, hitem, rfl, h⟩ | ⟨rfl, h⟩)
    · rw [Nat.zero_add]
      exact .part hitem rfl h
    · exact .atEnd h

end

namespace Expr

/-! ## Building reports the first fault -/

theorem mapM_paramName_reports (start : Nat) (params : List SExpr) :
    Reports (params.mapM paramName) (MalformedAmong .param start params) := by
  induction params generalizing start with
  | nil => exact .of_ok [] fun place fault => not_malformedAmong_nil
  | cons param params ih =>
    have hparam : Reports (paramName param) (Malformed .param param) := by
      cases param with
      | atom name =>
        refine .of_ok name fun place fault h => ?_
        cases h with
        | here h => cases h
      | list items => exact .of_error (.here rfl)
    rw [List.mapM_cons]
    exact hparam.cons fun name _ => (ih (start + 1)).map (name :: ·)

theorem paramNames_reports (node : SExpr) :
    Reports (paramNames .unlimited node) (Malformed .params node) := by
  cases node with
  | atom text =>
    rw [paramNames]
    exact .of_error (.here rfl)
  | list params =>
    rw [paramNames_unlimited_list]
    refine ((mapM_paramName_reports 0 params).bind (fun names hnames => ?_)
      fun place fault other fault' hplace hother => ?_).congr
      fun place fault => malformed_params_iff.symm
    · -- Where the names have been found no parameter is a list, so equal parameters are equal names.
      have hparams : params = names.map SExpr.atom := mapM_paramName_eq_ok_iff.1 hnames
      have hnodup : params.Nodup ↔ names.Nodup := by
        rw [hparams, List.nodup_map_iff fun name name' h => SExpr.atom.inj h]
      by_cases hnames : names.Nodup
      · rw [if_pos hnames]
        refine .of_ok names fun place fault h => ?_
        rw [Role.endFault?, if_pos (hnodup.2 hnames)] at h
        cases h.2
      · rw [if_neg hnames]
        refine .of_error ⟨⟨rfl, if_neg fun h => hnames (hnodup.1 h)⟩, fun h => .inl h.1⟩
    · obtain ⟨k, item, inner, hitem, rfl, -⟩ := hplace
      obtain ⟨rfl, -⟩ := hother
      obtain ⟨hk, -⟩ := List.getElem?_eq_some_iff.1 hitem
      rw [Nat.zero_add]
      exact .rel hk

mutual

theorem build_reports : ∀ node : SExpr, Reports (build .unlimited node) (Malformed .program node)
  | .atom text => by
    rw [build_atom]
    refine .of_ok _ fun place fault h => ?_
    cases h with
    | here h => cases h
  | .list [] => by
    rw [build_nil]
    exact .of_error (.here rfl)
  | .list (head :: rest) => by
    -- The results for the parts come first, where the recursion still sees that they are parts.
    have hhead := build_reports head
    have hargs := buildAll_reports 1 rest
    have hclauses := buildClauses_reports 1 rest
    cases hkeyword : Keyword.ofHead? head with
    | none =>
      rw [build_unlimited_application hkeyword]
      exact (hhead.cons fun func _ => hargs.map (Expr.app func)).congr
        fun place fault => (malformed_application_iff hkeyword).symm
    | some keyword =>
      rw [build_unlimited_form hkeyword]
      cases keyword with
      | quote =>
        match rest with
        | [datum] => exact .of_ok _ fun place fault => not_malformed_quote hkeyword
        | [] | _ :: _ :: _ =>
          exact .of_error (.here (Role.fault?_cons hkeyword _))
      | cond =>
        exact (hclauses.map Expr.cond).congr fun place fault => (malformed_cond_iff hkeyword).symm
      | lambda =>
        match rest with
        | [params, body] =>
          have hbody := build_reports body
          refine (((paramNames_reports params).inPart 1).bind
            (fun names _ => (hbody.inPart 2).map (Expr.lambda names)) ?_).congr
            fun place fault => (malformed_lambda_iff hkeyword).symm
          rintro place fault other fault' ⟨inner, rfl, -⟩ ⟨inner', rfl, -⟩
          exact .rel (by decide)
        | [] | [_] | _ :: _ :: _ :: _ =>
          exact .of_error (.here (Role.fault?_cons hkeyword _))

theorem buildClauses_reports : ∀ (start : Nat) (clauses : List SExpr),
    Reports (buildClauses .unlimited clauses) (MalformedAmong .clause start clauses)
  | start, [] => by
    rw [buildClauses]
    exact .of_ok [] fun place fault => not_malformedAmong_nil
  | start, .list [question, answer] :: clauses => by
    have hquestion := build_reports question
    have hanswer := build_reports answer
    have hclauses := buildClauses_reports (start + 1) clauses
    -- The builder goes on from the answer to the next clause; here the clause is a step of its own.
    have hclause : Reports (do
        let q ← build .unlimited question
        let a ← build .unlimited answer
        .ok (q, a)) (Malformed .clause (.list [question, answer])) :=
      (hquestion.cons fun q _ => hanswer.cons fun a _ =>
        .of_ok (q, a) fun place fault => not_malformedAmong_nil).congr
        fun place fault => (malformed_list_iff_among rfl (fun position => rfl) rfl).symm
    have hstep := hclause.cons fun branch _ => hclauses.map (branch :: ·)
    rw [buildClauses]
    cases hq : build .unlimited question with
    | error fault => rwa [hq] at hstep
    | ok q =>
      cases ha : build .unlimited answer with
      | error fault => rwa [hq, ha] at hstep
      | ok a => rwa [hq, ha] at hstep
  | start, .atom _ :: _ | start, .list [] :: _ | start, .list [_] :: _
  | start, .list (_ :: _ :: _ :: _) :: _ => by
    simp only [buildClauses]
    exact .cons_error rfl

theorem buildAll_reports : ∀ (start : Nat) (items : List SExpr),
    Reports (buildAll .unlimited items) (MalformedAmong .program start items)
  | start, [] => by
    rw [buildAll]
    exact .of_ok [] fun place fault => not_malformedAmong_nil
  | start, item :: items => by
    rw [buildAll]
    exact (build_reports item).cons fun e _ => (buildAll_reports (start + 1) items).map (e :: ·)

end

end Expr

/-! ## The first fault -/

section

variable {role : Role} {node : SExpr} {place : List Nat} {fault fault' : Fault}

theorem Malformed.unique (h : Malformed role node place fault) (h' : Malformed role node place fault') :
    fault = fault' := by
  induction h with
  | here h =>
    cases h' with
    | here h' => exact Option.some.inj (h.symm.trans h')
  | part hitem hrole _ ih =>
    cases h' with
    | part hitem' hrole' h' =>
      cases hitem.symm.trans hitem'
      cases hrole.symm.trans hrole'
      exact ih h'
    | atEnd =>
      rw [List.getElem?_length] at hitem
      cases hitem
  | atEnd h =>
    cases h' with
    | part hitem =>
      rw [List.getElem?_length] at hitem
      cases hitem
    | atEnd h' => exact Option.some.inj (h.symm.trans h')

theorem Role.kind_of_fault? (h : role.fault? node = some fault) : fault.kind = .build := by
  cases role with
  | program =>
    cases node with
    | atom text => cases h
    | list items =>
      rw [Role.fault?] at h
      rcases hkeyword : Keyword.ofItems? items with _ | keyword
      · rw [hkeyword, Role.countFault?, Option.ite_none_right_eq_some] at h
        cases h.2
        rfl
      · rw [hkeyword] at h
        cases keyword with
        | cond => cases h
        | quote | lambda =>
          rw [Role.countFault?, Option.ite_none_left_eq_some] at h
          cases h.2
          rfl
  | clause =>
    cases node with
    | atom text =>
      cases h
      rfl
    | list items =>
      rw [Role.fault?, Option.ite_none_left_eq_some] at h
      cases h.2
      rfl
  | params | param =>
    cases node <;> cases h
    rfl

theorem Malformed.kind_eq (h : Malformed role node place fault) : fault.kind = .build := by
  induction h with
  | here h => exact Role.kind_of_fault? h
  | part _ _ _ ih => exact ih
  | @atEnd role items fault h =>
    cases role with
    | params =>
      rw [Role.endFault?, Option.ite_none_left_eq_some] at h
      cases h.2
      rfl
    | program | clause | param => cases h

theorem IsFirst.place_eq {faults : List Nat → Fault → Prop} {other : List Nat} (h : IsFirst faults place fault)
    (h' : IsFirst faults other fault') : other = place := by
  rcases h.le_other h'.isFault with heq | hlt
  · exact heq
  · rcases h'.le_other h.isFault with heq | hgt
    · exact heq.symm
    · exact absurd hgt (List.lex_asymm Nat.lt_asymm hlt)

theorem Reports.eq_error_iff {α : Type} {step : Except Fault α} (h : Reports step (Malformed role node)) :
    step = .error fault ↔ ∃ place, IsFirst (Malformed role node) place fault := by
  refine ⟨h.error fault, ?_⟩
  rintro ⟨place, hfirst⟩
  cases step with
  | ok a => exact absurd hfirst.isFault (h.ok a rfl place fault)
  | error fault' =>
    obtain ⟨other, hother⟩ := h.error fault' rfl
    cases hfirst.place_eq hother
    rw [hfirst.isFault.unique hother.isFault]

/-- Without a limit on frames the builder fails only with faults of its own kind. -/
theorem Expr.build_failsOnly (node : SExpr) : FailsOnly [.build] (build .unlimited node) := by
  intro fault h
  obtain ⟨place, hfirst⟩ := (build_reports node).error fault h
  exact List.mem_singleton.2 hfirst.isFault.kind_eq

end

end MiniLisp
