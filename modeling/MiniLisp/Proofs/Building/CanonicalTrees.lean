import MiniLisp.Proofs.Building.EnoughRoom
import MiniLisp.Proofs.Building.MalformedForms
import MiniLisp.Proofs.Building.Spelling

/-!
What the builder accepts and what it makes. The S-expressions that it accepts are the well-formed ones,
the expressions that it makes are the canonical ones, and between these two it is a bijection.
-/

namespace MiniLisp

/-- An S-expression that is a program: its special forms have the right shape, as far as it is not
quoted. -/
inductive SExpr.WellFormed : SExpr → Prop
  | atom (text : String) : WellFormed (.atom text)
  | quote (datum : SExpr) : WellFormed (.list [.atom Keyword.quote.word, datum])
  | cond {clauses : List (SExpr × SExpr)} (hquestions : ∀ c ∈ clauses, WellFormed c.1)
      (hanswers : ∀ c ∈ clauses, WellFormed c.2) :
      WellFormed (.list (.atom Keyword.cond.word :: clauses.map fun c => .list [c.1, c.2]))
  | lambda {params : List String} {body : SExpr} (nodup : params.Nodup) (hbody : WellFormed body) :
      WellFormed (.list [.atom Keyword.lambda.word, .list (params.map .atom), body])
  | app {head : SExpr} {rest : List SExpr} (notKeyword : ∀ keyword : Keyword, head ≠ .atom keyword.word)
      (hhead : WellFormed head) (hrest : ∀ item ∈ rest, WellFormed item) :
      WellFormed (.list (head :: rest))

/-- An expression that consists of literals, empty lists and applications only. -/
inductive Expr.IsQuotedData : Expr → Prop
  | literal (text : String) : IsQuotedData (.literal text)
  | empty : IsQuotedData .empty
  | app {func : Expr} {args : List Expr} (hfunc : IsQuotedData func)
      (hargs : ∀ a ∈ args, IsQuotedData a) : IsQuotedData (.app func args)

/-- An expression without identifiers, with empty lists in quoted data only and branches in conditionals
only, whose quoted data are plain, whose lambdas have different parameters, and none of whose
applications would spell a special form. -/
inductive Expr.Canonical : Expr → Prop
  | literal (text : String) : Canonical (.literal text)
  | quote {datum : Expr} (h : datum.IsQuotedData) : Canonical (.quote datum)
  | cond {branches : List (Expr × Expr)} (hquestions : ∀ b ∈ branches, Canonical b.1)
      (hanswers : ∀ b ∈ branches, Canonical b.2) : Canonical (.cond branches)
  | lambda {params : List String} {body : Expr} (nodup : params.Nodup) (hbody : Canonical body) :
      Canonical (.lambda params body)
  | app {func : Expr} {args : List Expr}
      (notKeyword : ∀ keyword : Keyword, func ≠ .literal keyword.word) (hfunc : Canonical func)
      (hargs : ∀ a ∈ args, Canonical a) : Canonical (.app func args)

theorem Keyword.ofHead?_eq_none_iff {head : SExpr} :
    ofHead? head = none ↔ ∀ keyword : Keyword, head ≠ .atom keyword.word := by
  simp only [Option.eq_none_iff_forall_ne_some, ne_eq, ofHead?_eq_some_iff]

/-! ## Well-formed S-expressions -/

mutual

theorem Builds.wellFormed : ∀ {node : SExpr} {e : Expr}, Builds node e → node.WellFormed
  | _, _, .atom => .atom _
  | _, _, .quote => .quote _
  | _, _, .cond h => by
    obtain ⟨clauses, rfl, hquestions, hanswers⟩ := h.wellFormed
    exact .cond hquestions hanswers
  | _, _, .lambda nodup h => .lambda nodup h.wellFormed
  | _, _, .app notKeyword hfunc hargs =>
    .app (Keyword.ofHead?_eq_none_iff.1 notKeyword) hfunc.wellFormed hargs.wellFormed

theorem BuildsClauses.wellFormed : ∀ {clauses : List SExpr} {branches : List (Expr × Expr)},
    BuildsClauses clauses branches → ∃ pairs : List (SExpr × SExpr),
      clauses = pairs.map (fun c => .list [c.1, c.2]) ∧ (∀ c ∈ pairs, c.1.WellFormed) ∧
        ∀ c ∈ pairs, c.2.WellFormed
  | _, _, .nil => ⟨[], rfl, by simp, by simp⟩
  | _, _, .cons hq ha h => by
    have hquestion := hq.wellFormed
    have hanswer := ha.wellFormed
    obtain ⟨pairs, rfl, hquestions, hanswers⟩ := h.wellFormed
    exact ⟨(_, _) :: pairs, rfl, List.forall_mem_cons.2 ⟨hquestion, hquestions⟩,
      List.forall_mem_cons.2 ⟨hanswer, hanswers⟩⟩

theorem BuildsAll.wellFormed : ∀ {items : List SExpr} {es : List Expr},
    BuildsAll items es → ∀ item ∈ items, item.WellFormed
  | _, _, .nil => by simp
  | _, _, .cons hitem h => List.forall_mem_cons.2 ⟨hitem.wellFormed, h.wellFormed⟩

end

theorem buildsAll_of_forall {items : List SExpr} (h : ∀ item ∈ items, ∃ e, Builds item e) :
    ∃ es, BuildsAll items es := by
  induction items with
  | nil => exact ⟨[], .nil⟩
  | cons item items ih =>
    obtain ⟨⟨e, he⟩, hrest⟩ := List.forall_mem_cons.1 h
    obtain ⟨es, hes⟩ := ih hrest
    exact ⟨e :: es, .cons he hes⟩

theorem buildsClauses_of_forall {clauses : List (SExpr × SExpr)}
    (hquestions : ∀ c ∈ clauses, ∃ e, Builds c.1 e) (hanswers : ∀ c ∈ clauses, ∃ e, Builds c.2 e) :
    ∃ branches, BuildsClauses (clauses.map fun c => .list [c.1, c.2]) branches := by
  induction clauses with
  | nil => exact ⟨[], .nil⟩
  | cons c clauses ih =>
    obtain ⟨⟨q, hq⟩, hquestions⟩ := List.forall_mem_cons.1 hquestions
    obtain ⟨⟨a, ha⟩, hanswers⟩ := List.forall_mem_cons.1 hanswers
    obtain ⟨branches, h⟩ := ih hquestions hanswers
    exact ⟨(q, a) :: branches, .cons hq ha h⟩

theorem SExpr.WellFormed.builds {node : SExpr} (h : node.WellFormed) : ∃ e, Builds node e := by
  induction h with
  | atom text => exact ⟨_, .atom⟩
  | quote datum => exact ⟨_, .quote⟩
  | cond _ _ ihquestions ihanswers =>
    obtain ⟨branches, h⟩ := buildsClauses_of_forall ihquestions ihanswers
    exact ⟨_, .cond h⟩
  | lambda nodup _ ih =>
    obtain ⟨e, he⟩ := ih
    exact ⟨_, .lambda nodup he⟩
  | app notKeyword _ _ ihhead ihrest =>
    obtain ⟨func, hfunc⟩ := ihhead
    obtain ⟨args, hargs⟩ := buildsAll_of_forall ihrest
    exact ⟨_, .app (Keyword.ofHead?_eq_none_iff.2 notKeyword) hfunc hargs⟩

/-! ## Canonical expressions -/

namespace Expr

mutual

theorem isQuotedData_ofQuoted : ∀ node : SExpr, (ofQuoted node).IsQuotedData
  | .atom text => by
    rw [ofQuoted]
    exact .literal text
  | .list [] => by
    rw [ofQuoted]
    exact .empty
  | .list (head :: rest) => by
    rw [ofQuoted]
    exact .app (isQuotedData_ofQuoted head) (isQuotedData_ofQuotedItems rest)

theorem isQuotedData_ofQuotedItems :
    ∀ items : List SExpr, ∀ e ∈ ofQuotedItems items, IsQuotedData e
  | [] => by
    rw [ofQuotedItems]
    simp
  | item :: items => by
    rw [ofQuotedItems]
    exact List.forall_mem_cons.2 ⟨isQuotedData_ofQuoted item, isQuotedData_ofQuotedItems items⟩

end

theorem ofQuotedItems_eq_map (items : List SExpr) : ofQuotedItems items = items.map ofQuoted := by
  induction items with
  | nil => rw [ofQuotedItems, List.map_nil]
  | cons item items ih => rw [ofQuotedItems, ih, List.map_cons]

theorem IsQuotedData.ofQuoted_spelling {e : Expr} (h : e.IsQuotedData) : ofQuoted e.spelling = e := by
  induction h with
  | literal text => rw [spelling, ofQuoted]
  | empty => rw [spelling, ofQuoted]
  | @app func args _ _ ihfunc ihargs =>
    have hargs : (args.map spelling).map ofQuoted = args := by
      rw [List.map_map]
      exact (List.map_congr_left ihargs).trans (List.map_id args)
    rw [spelling, ofQuoted, ihfunc, spellings_eq_map, ofQuotedItems_eq_map, hargs]

/-- No canonical expression but a literal is spelled by an atom. -/
theorem Canonical.spelling_ne_atom {e : Expr} (h : e.Canonical) {text : String}
    (hne : e ≠ .literal text) : e.spelling ≠ .atom text := by
  cases h with
  | literal t =>
    rw [spelling]
    exact fun hsame => hne (by rw [SExpr.atom.inj hsame])
  | quote | cond | lambda | app => rw [spelling]; simp

theorem buildsAll_spellings {es : List Expr} (h : ∀ e ∈ es, Builds e.spelling e) :
    BuildsAll (spellings es) es := by
  induction es with
  | nil => rw [spellings]; exact .nil
  | cons e es ih =>
    obtain ⟨he, hes⟩ := List.forall_mem_cons.1 h
    rw [spellings]
    exact .cons he (ih hes)

theorem buildsClauses_spellings {branches : List (Expr × Expr)}
    (hquestions : ∀ b ∈ branches, Builds b.1.spelling b.1)
    (hanswers : ∀ b ∈ branches, Builds b.2.spelling b.2) :
    BuildsClauses (branchSpellings branches) branches := by
  induction branches with
  | nil => rw [branchSpellings]; exact .nil
  | cons b branches ih =>
    obtain ⟨hq, hquestions⟩ := List.forall_mem_cons.1 hquestions
    obtain ⟨ha, hanswers⟩ := List.forall_mem_cons.1 hanswers
    rw [branchSpellings]
    exact .cons hq ha (ih hquestions hanswers)

theorem Canonical.builds_spelling {e : Expr} (h : e.Canonical) : Builds e.spelling e := by
  induction h with
  | literal text => rw [spelling]; exact .atom
  | @quote datum h =>
    have hbuilds : Builds _ (.quote (ofQuoted datum.spelling)) := .quote
    rw [h.ofQuoted_spelling] at hbuilds
    rw [spelling]
    exact hbuilds
  | cond _ _ ihquestions ihanswers =>
    rw [spelling]
    exact .cond (buildsClauses_spellings ihquestions ihanswers)
  | lambda nodup _ ih => rw [spelling]; exact .lambda nodup ih
  | app notKeyword hfunc _ ihfunc ihargs =>
    -- The head is no literal with a keyword, so a keyword does not spell it either.
    rw [spelling]
    refine .app (Keyword.ofHead?_eq_none_iff.2 fun keyword => ?_) ihfunc (buildsAll_spellings ihargs)
    exact hfunc.spelling_ne_atom (notKeyword keyword)

end Expr

mutual

theorem Builds.canonical : ∀ {node : SExpr} {e : Expr}, Builds node e → e.Canonical
  | _, _, .atom => .literal _
  | _, _, .quote => .quote (Expr.isQuotedData_ofQuoted _)
  | _, _, .cond h => .cond (fun b hb => (h.canonical b hb).1) fun b hb => (h.canonical b hb).2
  | _, _, .lambda nodup h => .lambda nodup h.canonical
  | _, _, .app notKeyword hfunc hargs => by
    refine .app (fun keyword hword => ?_) hfunc.canonical hargs.canonical
    -- A literal is spelled by its own text only.
    refine Keyword.ofHead?_eq_none_iff.1 notKeyword keyword ?_
    rw [hfunc.eq_spelling, hword, Expr.spelling]

theorem BuildsClauses.canonical : ∀ {clauses : List SExpr} {branches : List (Expr × Expr)},
    BuildsClauses clauses branches → ∀ b ∈ branches, b.1.Canonical ∧ b.2.Canonical
  | _, _, .nil => by simp
  | _, _, .cons hq ha h => List.forall_mem_cons.2 ⟨⟨hq.canonical, ha.canonical⟩, h.canonical⟩

theorem BuildsAll.canonical : ∀ {items : List SExpr} {es : List Expr},
    BuildsAll items es → ∀ e ∈ es, e.Canonical
  | _, _, .nil => by simp
  | _, _, .cons hitem h => List.forall_mem_cons.2 ⟨hitem.canonical, h.canonical⟩

end

namespace Expr

theorem build_eq_ok_iff_spelling {node : SExpr} {e : Expr} :
    build .unlimited node = .ok e ↔ e.Canonical ∧ node = e.spelling := by
  rw [build_eq_ok_iff]
  constructor
  · exact fun h => ⟨h.canonical, h.eq_spelling⟩
  · rintro ⟨hcanonical, rfl⟩
    exact hcanonical.builds_spelling

theorem build_eq_ok_iff_wellFormed {node : SExpr} :
    (∃ e, build .unlimited node = .ok e) ↔ node.WellFormed := by
  constructor
  · rintro ⟨e, h⟩
    exact (build_eq_ok_iff.1 h).wellFormed
  · intro h
    obtain ⟨e, he⟩ := h.builds
    exact ⟨e, build_eq_ok_iff.2 he⟩

end Expr

/-- The builder accepts the well-formed S-expressions and refuses all others with a fault of its own kind.
It never builds one expression from two S-expressions, and what it builds are the canonical
expressions. With a limit on frames it does the same, unless it runs out of them. -/
theorem builder_is_a_bijection :
    (∀ node, (∃ e, Expr.build .unlimited node = .ok e) ↔ node.WellFormed) ∧
      (∀ node, ¬ node.WellFormed →
        ∃ fault, Expr.build .unlimited node = .error fault ∧ fault.kind = .build) ∧
      (∀ node node' e, Expr.build .unlimited node = .ok e → Expr.build .unlimited node' = .ok e →
        node = node') ∧
      (∀ e, (∃ node, Expr.build .unlimited node = .ok e) ↔ e.Canonical) ∧
      ∀ room node, Expr.build room node = .error .outOfFrames ∨
        Expr.build room node = Expr.build .unlimited node := by
  refine ⟨fun node => Expr.build_eq_ok_iff_wellFormed, fun node h => ?_, fun node node' e h h' => ?_,
    fun e => ⟨?_, fun h => ?_⟩, fun room node => ?_⟩
  · cases hbuild : Expr.build .unlimited node with
    | ok e => exact absurd (Expr.build_eq_ok_iff_wellFormed.1 ⟨e, hbuild⟩) h
    | error fault => exact ⟨fault, rfl, List.mem_singleton.1 (Expr.build_failsOnly node fault hbuild)⟩
  · rw [(Expr.build_eq_ok_iff_spelling.1 h).2, (Expr.build_eq_ok_iff_spelling.1 h').2]
  · rintro ⟨node, h⟩
    exact (Expr.build_eq_ok_iff_spelling.1 h).1
  · exact ⟨e.spelling, Expr.build_eq_ok_iff_spelling.2 ⟨h, rfl⟩⟩
  · have hkeeps := (Expr.build_graded node).keeps (Headroom.noLarger_unlimited room)
    exact hkeeps.imp_right Eq.symm

/-- A lambda whose answer is quoted data that look like a malformed lambda, and an application with a
malformed lambda as its argument. -/
theorem builder_on_two_lambdas :
    let node : SExpr := .list [.atom "lambda", .list [.atom "x"], .list [.atom "cond",
      .list [.atom "x", .list [.atom "quote", .list [.atom "lambda", .atom "x"]]]]]
    let e : Expr := .lambda ["x"]
      (.cond [(.literal "x", .quote (.app (.literal "lambda") [.literal "x"]))])
    let refused : SExpr :=
      .list [.atom "incr", .list [.atom "lambda", .list [.atom "x", .atom "x"], .atom "x"]]
    Expr.build .unlimited node = .ok e ∧ node.WellFormed ∧ e.Canonical ∧
      (∀ node', Expr.build .unlimited node' = .ok e → node' = node) ∧ ¬ refused.WellFormed ∧
      ∃ fault, Expr.build .unlimited refused = .error fault ∧ fault.kind = .build := by
  intro node e refused
  obtain ⟨haccepts, hrefuses, hinjective, hcanonical, -⟩ := builder_is_a_bijection
  have hbuild : Expr.build .unlimited node = .ok e := by cbv
  have hmalformed : ¬ refused.WellFormed := by
    intro h
    obtain ⟨e', he'⟩ := (haccepts refused).2 h
    have hduplicate : Expr.build .unlimited refused =
        .error (.duplicateParam [.atom "x", .atom "x"]) := by cbv
    rw [hduplicate] at he'
    cases he'
  exact ⟨hbuild, (haccepts node).1 ⟨e, hbuild⟩, (hcanonical e).1 ⟨node, hbuild⟩,
    fun node' h => hinjective node' node e h hbuild, hmalformed, hrefuses refused hmalformed⟩

end MiniLisp
