import MiniLisp.Proofs.Building.Equations

/-!
The grammar of programs: which S-expressions are accepted when there is room enough, and the expressions
that are built from them (`Expr.build_eq_ok_iff`).
-/

namespace MiniLisp

mutual

/-- The S-expression is a program, and the expression is the one that it spells. -/
inductive Builds : SExpr → Expr → Prop
  | atom {text : String} : Builds (.atom text) (.literal text)
  | quote {datum : SExpr} :
      Builds (.list [.atom Keyword.quote.word, datum]) (.quote (.ofQuoted datum))
  | cond {clauses : List SExpr} {branches : List (Expr × Expr)}
      (h : BuildsClauses clauses branches) :
      Builds (.list (.atom Keyword.cond.word :: clauses)) (.cond branches)
  | lambda {params : List String} {node : SExpr} {body : Expr} (nodup : params.Nodup)
      (h : Builds node body) :
      Builds (.list [.atom Keyword.lambda.word, .list (params.map .atom), node])
        (.lambda params body)
  | app {head : SExpr} {rest : List SExpr} {func : Expr} {args : List Expr}
      (notKeyword : Keyword.ofHead? head = none) (hfunc : Builds head func)
      (hargs : BuildsAll rest args) : Builds (.list (head :: rest)) (.app func args)

/-- Each S-expression is a clause of a conditional, and the branches are those that they spell. -/
inductive BuildsClauses : List SExpr → List (Expr × Expr) → Prop
  | nil : BuildsClauses [] []
  | cons {question answer : SExpr} {clauses : List SExpr} {q a : Expr}
      {branches : List (Expr × Expr)} (hq : Builds question q) (ha : Builds answer a)
      (h : BuildsClauses clauses branches) :
      BuildsClauses (.list [question, answer] :: clauses) ((q, a) :: branches)

/-- Each S-expression is a program, and the expressions are those that they spell. -/
inductive BuildsAll : List SExpr → List Expr → Prop
  | nil : BuildsAll [] []
  | cons {item : SExpr} {items : List SExpr} {e : Expr} {es : List Expr} (hitem : Builds item e)
      (h : BuildsAll items es) : BuildsAll (item :: items) (e :: es)

end

namespace Keyword

theorem ofHead?_eq_some_iff {head : SExpr} {keyword : Keyword} :
    ofHead? head = some keyword ↔ head = .atom keyword.word := by
  constructor
  · intro h
    cases head with
    | list items => cases h
    | atom text =>
      by_cases hquote : text = word .quote
      · rw [ofHead?, if_pos hquote] at h
        rw [hquote, Option.some.inj h]
      · by_cases hcond : text = word .cond
        · rw [ofHead?, if_neg hquote, if_pos hcond] at h
          rw [hcond, Option.some.inj h]
        · by_cases hlambda : text = word .lambda
          · rw [ofHead?, if_neg hquote, if_neg hcond, if_pos hlambda] at h
            rw [hlambda, Option.some.inj h]
          · rw [ofHead?, if_neg hquote, if_neg hcond, if_neg hlambda] at h
            cases h
  · rintro rfl
    cases keyword <;> decide

end Keyword

/-! ## Steps that succeed -/

section

variable {α β γ : Type}

theorem bind_eq_ok_iff {step : Except γ α} {rest : α → Except γ β} {b : β} :
    step >>= rest = .ok b ↔ ∃ a, step = .ok a ∧ rest a = .ok b := by
  cases step with
  | ok a =>
    constructor
    · exact fun h => ⟨a, rfl, h⟩
    · rintro ⟨a', ha, h⟩
      cases ha
      exact h
  | error fault =>
    constructor
    · exact fun h => nomatch h
    · rintro ⟨a', ha, h⟩
      cases ha

theorem map_eq_ok_iff {step : Except γ α} {f : α → β} {b : β} :
    f <$> step = .ok b ↔ ∃ a, step = .ok a ∧ f a = b := by
  cases step with
  | ok a =>
    constructor
    · exact fun h => ⟨a, rfl, Except.ok.inj h⟩
    · rintro ⟨a', ha, h⟩
      cases ha
      exact congrArg Except.ok h
  | error fault =>
    constructor
    · exact fun h => nomatch h
    · rintro ⟨a', ha, h⟩
      cases ha

end

namespace Expr

theorem build_unlimited_form {head : SExpr} {keyword : Keyword}
    (h : Keyword.ofHead? head = some keyword) (rest : List SExpr) :
    build .unlimited (.list (head :: rest)) = buildForm .unlimited keyword rest :=
  build_form .unlimited h rest

theorem build_unlimited_application {head : SExpr} (h : Keyword.ofHead? head = none)
    (rest : List SExpr) :
    build .unlimited (.list (head :: rest)) = (do
      let func ← build .unlimited head
      .app func <$> buildAll .unlimited rest) :=
  build_application .unlimited h rest

/-- The name of a parameter, which has to be an atom. -/
def paramName : SExpr → Except Fault String
  | .atom name => .ok name
  | .list items => .error (.lambdaParam (.list items))

theorem mapM_paramName_eq_ok_iff {params : List SExpr} {names : List String} :
    params.mapM paramName = .ok names ↔ params = names.map .atom := by
  induction params generalizing names with
  | nil =>
    cases names with
    | nil => exact ⟨fun _ => rfl, fun _ => rfl⟩
    | cons name names => exact ⟨fun h => (nomatch h), fun h => (nomatch h)⟩
  | cons param params ih =>
    rw [List.mapM_cons]
    cases param with
    | list items =>
      constructor
      · exact fun h => nomatch h
      · intro h
        cases names <;> cases h
    | atom text =>
      show (params.mapM paramName >>= fun rest => .ok (text :: rest)) = .ok names ↔ _
      rw [bind_eq_ok_iff]
      constructor
      · rintro ⟨rest, hrest, hnames⟩
        cases hnames
        rw [ih.1 hrest, List.map_cons]
      · intro h
        cases names with
        | nil => cases h
        | cons name names =>
          rw [List.map_cons, List.cons.injEq, SExpr.atom.injEq] at h
          exact ⟨names, ih.2 h.2, by rw [h.1]⟩

theorem paramNames_unlimited_list (params : List SExpr) :
    paramNames .unlimited (.list params) = (do
      let found ← params.mapM paramName
      if found.Nodup then .ok found else .error (.duplicateParam params)) := by
  rw [paramNames]
  refine congrArg (· >>= _) (congrArg (List.mapM · params) (funext fun param => ?_))
  cases param <;> rfl

theorem paramNames_eq_ok_iff {node : SExpr} {names : List String} :
    paramNames .unlimited node = .ok names ↔ node = .list (names.map .atom) ∧ names.Nodup := by
  cases node with
  | atom text =>
    rw [paramNames]
    exact ⟨fun h => (nomatch h), fun h => nomatch h.1⟩
  | list params =>
    rw [paramNames_unlimited_list, bind_eq_ok_iff]
    constructor
    · rintro ⟨found, hfound, h⟩
      by_cases hnodup : found.Nodup
      · rw [if_pos hnodup] at h
        cases h
        exact ⟨congrArg SExpr.list (mapM_paramName_eq_ok_iff.1 hfound), hnodup⟩
      · rw [if_neg hnodup] at h
        cases h
    · rintro ⟨hnode, hnodup⟩
      refine ⟨names, mapM_paramName_eq_ok_iff.2 (SExpr.list.inj hnode), ?_⟩
      rw [if_pos hnodup]

mutual

theorem builds_of_build : ∀ (node : SExpr) (e : Expr), build .unlimited node = .ok e → Builds node e
  | .atom text, e, h => by
    rw [build_atom] at h
    cases h
    exact .atom
  | .list [], e, h => by
    rw [build_nil] at h
    cases h
  | .list (head :: rest), e, h => by
    -- The results for the parts come first, where the recursion still sees that they are parts.
    have hfunc := builds_of_build head
    have hargs := buildsAll_of_buildAll rest
    have hclauses := buildsClauses_of_build rest
    cases hkeyword : Keyword.ofHead? head with
    | none =>
      rw [build_unlimited_application hkeyword] at h
      obtain ⟨func, hhead, h⟩ := bind_eq_ok_iff.1 h
      obtain ⟨args, hrest, rfl⟩ := map_eq_ok_iff.1 h
      exact .app hkeyword (hfunc func hhead) (hargs args hrest)
    | some keyword =>
      rw [build_unlimited_form hkeyword] at h
      rw [Keyword.ofHead?_eq_some_iff] at hkeyword
      subst hkeyword
      cases keyword with
      | quote =>
        match rest with
        | [datum] =>
          obtain ⟨d, hd, rfl⟩ := map_eq_ok_iff.1 h
          cases hd
          exact .quote
        | [] | _ :: _ :: _ => cases h
      | cond =>
        obtain ⟨branches, hbranches, rfl⟩ := map_eq_ok_iff.1 h
        exact .cond (hclauses branches hbranches)
      | lambda =>
        match rest with
        | [params, node] =>
          have hnode := builds_of_build node
          obtain ⟨names, hnames, h⟩ := bind_eq_ok_iff.1 h
          obtain ⟨body, hbody, rfl⟩ := map_eq_ok_iff.1 h
          obtain ⟨rfl, hnodup⟩ := paramNames_eq_ok_iff.1 hnames
          exact .lambda hnodup (hnode body hbody)
        | [] | [_] | _ :: _ :: _ :: _ => cases h

theorem buildsClauses_of_build : ∀ (clauses : List SExpr) (branches : List (Expr × Expr)),
    buildClauses .unlimited clauses = .ok branches → BuildsClauses clauses branches
  | [], branches, h => by
    rw [buildClauses] at h
    cases h
    exact .nil
  | .list [question, answer] :: clauses, branches, h => by
    have hquestion := builds_of_build question
    have hanswer := builds_of_build answer
    have hclauses := buildsClauses_of_build clauses
    rw [buildClauses] at h
    obtain ⟨q, hq, h⟩ := bind_eq_ok_iff.1 h
    obtain ⟨a, ha, h⟩ := bind_eq_ok_iff.1 h
    obtain ⟨bs, hbs, rfl⟩ := map_eq_ok_iff.1 h
    exact .cons (hquestion q hq) (hanswer a ha) (hclauses bs hbs)
  | .atom _ :: _, branches, h | .list [] :: _, branches, h | .list [_] :: _, branches, h
  | .list (_ :: _ :: _ :: _) :: _, branches, h => by
    simp [buildClauses] at h

theorem buildsAll_of_buildAll : ∀ (items : List SExpr) (es : List Expr),
    buildAll .unlimited items = .ok es → BuildsAll items es
  | [], es, h => by
    rw [buildAll] at h
    cases h
    exact .nil
  | item :: items, es, h => by
    have hitem := builds_of_build item
    have hitems := buildsAll_of_buildAll items
    rw [buildAll] at h
    obtain ⟨e, he, h⟩ := bind_eq_ok_iff.1 h
    obtain ⟨rest, hrest, rfl⟩ := map_eq_ok_iff.1 h
    exact .cons (hitem e he) (hitems rest hrest)

end

mutual

theorem build_of_builds : ∀ {node : SExpr} {e : Expr}, Builds node e → build .unlimited node = .ok e
  | _, _, .atom => by rw [build_atom]; rfl
  | _, _, .quote => by
    rw [build_unlimited_form (Keyword.ofHead?_eq_some_iff.2 rfl)]
    rfl
  | _, _, .cond h => by
    have hbranches := buildClauses_of_builds h
    rw [build_unlimited_form (Keyword.ofHead?_eq_some_iff.2 rfl)]
    exact map_eq_ok_iff.2 ⟨_, hbranches, rfl⟩
  | _, _, .lambda nodup h => by
    have hbody := build_of_builds h
    rw [build_unlimited_form (Keyword.ofHead?_eq_some_iff.2 rfl)]
    exact bind_eq_ok_iff.2 ⟨_, paramNames_eq_ok_iff.2 ⟨rfl, nodup⟩, map_eq_ok_iff.2 ⟨_, hbody, rfl⟩⟩
  | _, _, .app notKeyword hfunc hargs => by
    have hhead := build_of_builds hfunc
    have hrest := buildAll_of_builds hargs
    rw [build_unlimited_application notKeyword]
    exact bind_eq_ok_iff.2 ⟨_, hhead, map_eq_ok_iff.2 ⟨_, hrest, rfl⟩⟩

theorem buildClauses_of_builds : ∀ {clauses : List SExpr} {branches : List (Expr × Expr)},
    BuildsClauses clauses branches → buildClauses .unlimited clauses = .ok branches
  | _, _, .nil => by rw [buildClauses]
  | _, _, .cons hq ha h => by
    have hquestion := build_of_builds hq
    have hanswer := build_of_builds ha
    have hclauses := buildClauses_of_builds h
    rw [buildClauses]
    exact bind_eq_ok_iff.2 ⟨_, hquestion, bind_eq_ok_iff.2 ⟨_, hanswer,
      map_eq_ok_iff.2 ⟨_, hclauses, rfl⟩⟩⟩

theorem buildAll_of_builds : ∀ {items : List SExpr} {es : List Expr},
    BuildsAll items es → buildAll .unlimited items = .ok es
  | _, _, .nil => by rw [buildAll]
  | _, _, .cons hitem h => by
    have hfirst := build_of_builds hitem
    have hitems := buildAll_of_builds h
    rw [buildAll]
    exact bind_eq_ok_iff.2 ⟨_, hfirst, map_eq_ok_iff.2 ⟨_, hitems, rfl⟩⟩

end

/-- Without a limit the builder makes an expression of an S-expression exactly if it is the one that the
S-expression spells. -/
theorem build_eq_ok_iff {node : SExpr} {e : Expr} :
    build .unlimited node = .ok e ↔ Builds node e :=
  ⟨builds_of_build node e, build_of_builds⟩

end Expr

end MiniLisp
