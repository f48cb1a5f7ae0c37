import MiniLisp.Proofs.Building.CanonicalTrees
import MiniLisp.Proofs.Building.EnoughRoom
import MiniLisp.Proofs.Building.MalformedForms

/-!
Which fault is reported for a program that has several: the one of the first malformed form, so that nothing
matters that comes later (`Expr.first_malformed_form_is_reported`).
-/

namespace MiniLisp

/-- Up to this place the S-expressions are the same, and the later elements of all lists around it stand one for
one for each other. -/
inductive SameUpTo : List Nat → SExpr → SExpr → Prop
  | same {place : List Nat} {node : SExpr} : SameUpTo place node node
  | inside {place : List Nat} {item item' : SExpr} (before : List SExpr) {after after' : List SExpr}
      (h : SameUpTo place item item') (hafter : after.length = after'.length) :
      SameUpTo (before.length :: place) (.list (before ++ item :: after)) (.list (before ++ item' :: after'))

section

variable {role inner : Role} {node node' item : SExpr} {items : List SExpr} {place : List Nat}
  {fault fault' : Fault}

theorem Malformed.of_part {position : Nat} (h : Malformed role (.list items) (position :: place) fault)
    (hitem : items[position]? = some item) :
    ∃ inner, role.ofPart? items position = some inner ∧ Malformed inner item place fault := by
  cases h with
  | part hother hrole h =>
    cases hitem.symm.trans hother
    exact ⟨_, hrole, h⟩
  | atEnd =>
    rw [List.getElem?_length] at hitem
    cases hitem

/-- In a list that has no fault before this element, the first one is the first one there. -/
theorem IsFirst.inside {position : Nat} (h : IsFirst (Malformed inner item) place fault)
    (hfault : role.fault? (.list items) = none) (hitem : items[position]? = some item)
    (hrole : role.ofPart? items position = some inner)
    (hearlier : ∀ earlier < position, ∀ place fault,
      ¬ Malformed role (.list items) (earlier :: place) fault) :
    IsFirst (Malformed role (.list items)) (position :: place) fault := by
  refine ⟨.part hitem hrole h.isFault, fun {other fault'} hother => ?_⟩
  cases hother with
  | here h =>
    rw [hfault] at h
    cases h
  | @part _ _ _ other _ _ _ hitem' hrole' h' =>
    rcases Nat.lt_trichotomy position other with hlt | rfl | hgt
    · exact .inr (.rel hlt)
    · cases hitem.symm.trans hitem'
      cases hrole.symm.trans hrole'
      rcases h.le_other h' with rfl | hlater
      · exact .inl rfl
      · exact .inr (.cons hlater)
    · exact absurd (.part hitem' hrole' h') (hearlier other hgt _ _)
  | atEnd => exact .inr (.rel (List.getElem?_eq_some_iff.1 hitem).1)

theorem IsFirst.of_inside {position : Nat}
    (h : IsFirst (Malformed role (.list items)) (position :: place) fault)
    (hitem : items[position]? = some item) (hrole : role.ofPart? items position = some inner)
    (hfault : Malformed inner item place fault) : IsFirst (Malformed inner item) place fault := by
  refine ⟨hfault, fun hother => ?_⟩
  rcases h.le_other (.part hitem hrole hother) with heq | hlater
  · exact .inl (List.cons.inj heq).2
  · cases hlater with
    | cons hlater => exact .inr hlater
    | rel hlt => exact absurd hlt (Nat.lt_irrefl position)

/-! ## Later siblings do not matter -/

/-- A malformed head of a list is no keyword. -/
theorem Malformed.ofHead?_eq_none (h : Malformed inner item place fault)
    (hrole : role.ofPart? items 0 = some inner) : Keyword.ofHead? item = none := by
  cases item with
  | list items => rfl
  | atom text =>
    have hinner : inner = .program ∨ inner = .param := by
      cases role with
      | program =>
        rw [Role.ofPart?] at hrole
        rcases hkeyword : Keyword.ofItems? items with _ | keyword
        · rw [hkeyword] at hrole
          exact .inl (Option.some.inj hrole).symm
        · rw [hkeyword] at hrole
          cases keyword <;> cases hrole
      | clause => exact .inl (Option.some.inj hrole).symm
      | params => exact .inr (Option.some.inj hrole).symm
      | param => cases hrole
    rcases hinner with rfl | rfl <;> cases h with | here h => cases h

/-- What can be said of a list without looking into its elements depends on their number and its keyword. -/
theorem Role.ofPart?_congr {items' : List SExpr} (role : Role)
    (hkeyword : Keyword.ofItems? items = Keyword.ofItems? items') (position : Nat) :
    role.ofPart? items position = role.ofPart? items' position := by
  cases role with
  | program => rw [Role.ofPart?, Role.ofPart?, hkeyword]
  | clause | params | param => rfl

theorem Role.fault?_congr {items' : List SExpr} (hkeyword : Keyword.ofItems? items = Keyword.ofItems? items')
    (hlength : items.length = items'.length) (hrole : role ≠ .param)
    (h : role.fault? (.list items) = none) : role.fault? (.list items') = none := by
  cases role with
  | program => rwa [Role.fault?, ← hkeyword, ← hlength]
  | clause =>
    rw [Role.fault?] at h ⊢
    by_cases hcount : items.length = 2
    · rw [if_pos (hlength.symm.trans hcount)]
    · rw [if_neg hcount] at h
      cases h
  | params => rfl
  | param => exact absurd rfl hrole

theorem IsFirst.fault?_eq_none {position : Nat}
    (h : IsFirst (Malformed role node) (position :: place) fault) : role.fault? node = none := by
  cases hfault : role.fault? node with
  | none => rfl
  | some found =>
    rcases h.le_other (.here hfault) with heq | hlater
    · cases heq
    · cases hlater

/-- The first fault stays the first one where only what comes later changes. -/
theorem IsFirst.of_sameUpTo (hsame : SameUpTo place node node')
    (h : IsFirst (Malformed role node) place fault) : IsFirst (Malformed role node') place fault := by
  induction hsame generalizing role with
  | same => exact h
  | @inside place item item' before after after' hsame hafter ih =>
    have hitem : (before ++ item :: after)[before.length]? = some item := by simp
    have hitem' : (before ++ item' :: after')[before.length]? = some item' := by simp
    obtain ⟨inner, hrole, hfault⟩ := h.isFault.of_part hitem
    have hfirst := ih (h.of_inside hitem hrole hfault)
    have hkeyword : Keyword.ofItems? (before ++ item :: after) =
        Keyword.ofItems? (before ++ item' :: after') := by
      cases before with
      | nil =>
        -- What takes the place of a malformed head is malformed too, so neither is a keyword.
        have hhead : Keyword.ofHead? item = none := hfault.ofHead?_eq_none hrole
        have hhead' : Keyword.ofHead? item' = none := hfirst.isFault.ofHead?_eq_none hrole
        exact hhead.trans hhead'.symm
      | cons first before => rfl
    have hlength : (before ++ item :: after).length = (before ++ item' :: after').length := by
      simp [hafter]
    have hnotParam : role ≠ .param := by
      rintro rfl
      cases hrole
    refine hfirst.inside (Role.fault?_congr hkeyword hlength hnotParam h.fault?_eq_none) hitem'
      ((role.ofPart?_congr hkeyword before.length).symm.trans hrole) fun earlier hlt other fault' hother => ?_
    -- What comes before stands in the other list as well.
    have hbefore : (before ++ item' :: after')[earlier]? = (before ++ item :: after)[earlier]? := by
      rw [List.getElem?_append_left hlt, List.getElem?_append_left hlt]
    cases hother with
    | part hpart hrole' hinner =>
      rw [hbefore] at hpart
      rw [← role.ofPart?_congr hkeyword] at hrole'
      rcases h.le_other (.part hpart hrole' hinner) with heq | hlater
      · exact absurd (List.cons.inj heq).1 (Nat.ne_of_lt hlt)
      · cases hlater with
        | rel hgt => exact absurd hgt (Nat.lt_asymm hlt)
        | cons => exact absurd hlt (Nat.lt_irrefl _)
    | atEnd =>
      rw [List.length_append] at hlt
      omega

end

namespace Expr

theorem build_lambda_of_params {params body : SExpr} {fault : Fault}
    (h : paramNames .unlimited params = .error fault) :
    build .unlimited (.list [.atom Keyword.lambda.word, params, body]) = .error fault := by
  rw [build_unlimited_form (Keyword.ofHead?_eq_some_iff.2 rfl), buildForm, Headroom.below_unlimited, h]
  rfl

theorem mapM_paramName_of_list (names : List String) (items : List SExpr) (later : List SExpr) :
    (names.map SExpr.atom ++ .list items :: later).mapM paramName =
      .error (.lambdaParam (.list items)) := by
  have hnames : (names.map SExpr.atom).mapM paramName = .ok names := mapM_paramName_eq_ok_iff.2 rfl
  rw [List.mapM_append, hnames, List.mapM_cons]
  rfl

/-- Of all that is wrong with a program the builder reports what comes first: a form before its parts, the
parameters of a lambda before its body, and each clause of a conditional before its question and its answer
but after the earlier clauses. Nothing is wrong inside of quoted data. So the report does not depend on what
stands later in the form at fault or in those around it. A lambda with a wrong number of parts is reported
as such whatever they are, parameters that are no list before those that are no names, the first of these
before a name that occurs twice, and all of them before the body. -/
theorem first_malformed_form_is_reported (node : SExpr) :
    (∀ fault, build .unlimited node = .error fault ↔
      ∃ place, IsFirst (Malformed .program node) place fault) ∧
    (∀ fault, build .unlimited node = .error fault → fault.kind = .build) ∧
    (∀ room, build room node = .error .outOfFrames ∨ build room node = build .unlimited node) ∧
    (∀ place fault node', IsFirst (Malformed .program node) place fault → SameUpTo place node node' →
      build .unlimited node' = .error fault) ∧
    (∀ parts, parts.length ≠ 2 →
      build .unlimited (.list (.atom Keyword.lambda.word :: parts)) = .error .lambdaShape) ∧
    ∀ body,
      (∀ text, build .unlimited (.list [.atom Keyword.lambda.word, .atom text, body]) =
        .error (.lambdaParams (.atom text))) ∧
      (∀ (names : List String) items later, build .unlimited (.list [.atom Keyword.lambda.word,
        .list (names.map .atom ++ .list items :: later), body]) = .error (.lambdaParam (.list items))) ∧
      ∀ names : List String, ¬ names.Nodup → build .unlimited (.list [.atom Keyword.lambda.word,
        .list (names.map .atom), body]) = .error (.duplicateParam (names.map .atom)) := by
  refine ⟨fun fault => (build_reports node).eq_error_iff, fun fault h => ?_, fun room => ?_,
    fun place fault node' hfirst hsame => ?_, fun parts hparts => ?_, fun body => ⟨fun text => ?_,
      fun names items later => ?_, fun names hnames => ?_⟩⟩
  · exact List.mem_singleton.1 (build_failsOnly node fault h)
  · exact ((build_graded node).keeps (Headroom.noLarger_unlimited room)).imp_right Eq.symm
  · exact (build_reports node').eq_error_iff.2 ⟨place, hfirst.of_sameUpTo hsame⟩
  · refine (build_reports _).eq_error_iff.2 ⟨[], .here ?_⟩
    have hcount : parts.length + 1 ≠ 3 := fun h => hparts (Nat.succ.inj h)
    exact if_neg hcount
  · exact build_lambda_of_params rfl
  · refine build_lambda_of_params ?_
    rw [paramNames_unlimited_list, mapM_paramName_of_list]
    rfl
  · refine build_lambda_of_params ?_
    rw [paramNames_unlimited_list, mapM_paramName_eq_ok_iff.2 rfl]
    exact if_neg hnames

/-- A clause without an answer, with other faults after it in the conditional and in the call around it. -/
theorem report_of_clause_without_answer :
    let conditional (clause : SExpr) : SExpr :=
      .list [.atom "cond", .list [.atom "x"], clause]
    let call (clause last : SExpr) : SExpr := .list [.atom "f", conditional clause, last]
    let fault : Fault := .condClause (.list [.atom "x"])
    let twice : SExpr := .list [.atom "lambda", .list [.atom "a", .atom "a"], .list []]
    IsFirst (Malformed .program (call (.atom "y") twice)) [1, 1] fault ∧
      build .unlimited (call (.atom "y") twice) = .error fault ∧
      SameUpTo [1, 1] (call (.atom "y") twice) (call (.list []) (.atom "z")) ∧
      build .unlimited (call (.list []) (.atom "z")) = .error fault ∧
      build .unlimited (.list [.atom "lambda", .list []]) = .error .lambdaShape ∧
      build .unlimited twice = .error (.duplicateParam [.atom "a", .atom "a"]) := by
  intro conditional call fault twice
  have hclause : IsFirst (Malformed .program (conditional (.atom "y"))) [1] fault := by
    have hhere : IsFirst (Malformed .clause (.list [.atom "x"])) [] fault := .here rfl
    refine hhere.inside (by decide) rfl (by decide) fun earlier hlt place fault h => ?_
    obtain rfl : earlier = 0 := by omega
    obtain ⟨inner, hrole, -⟩ := h.of_part rfl
    cases hrole
  have hfirst : IsFirst (Malformed .program (call (.atom "y") twice)) [1, 1] fault := by
    refine hclause.inside (by decide) rfl (by decide) fun earlier hlt place fault h => ?_
    obtain rfl : earlier = 0 := by omega
    obtain ⟨inner, hrole, h⟩ := h.of_part rfl
    cases hrole
    cases h with
    | here h => cases h
  have hsame : SameUpTo [1, 1] (call (.atom "y") twice) (call (.list []) (.atom "z")) :=
    .inside [_] (.inside [_] .same rfl) rfl
  obtain ⟨herror, -, -, hlater, -⟩ := first_malformed_form_is_reported (call (.atom "y") twice)
  obtain ⟨-, -, -, -, hshape, hparams⟩ := first_malformed_form_is_reported twice
  exact ⟨hfirst, (herror fault).2 ⟨_, hfirst⟩, hsame, hlater _ _ _ hfirst hsame,
    hshape [.list []] (by decide), (hparams (.list [])).2.2 ["a", "a"] (by decide)⟩

end Expr

end MiniLisp
