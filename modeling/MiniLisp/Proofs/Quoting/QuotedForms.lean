import MiniLisp.Proofs.Building.CanonicalTrees
import MiniLisp.Proofs.Building.Rendering
import MiniLisp.Proofs.Quoting.Data

/-!
Quoted expressions as data. Without a limit on frames an expression is quoted as the datum that it spells,
unless it has a branch outside of a conditional, the first of which is refused (`Expr.datum_eq`). What is
quoted is printed as the source of the expression, with its integer literals in canonical form
(`quoted_expressions_print_as_their_source`).
-/

namespace MiniLisp

namespace Expr

/-! ## Literals, branches and data of an expression -/

mutual

/-- The texts of the literals of an expression, also of those in quoted data. -/
def literals : Expr → List String
  | .literal text => [text]
  | .identifier _ => []
  | .quote d => d.literals
  | .branch question answer => question.literals ++ answer.literals
  | .cond branches => branchLiterals branches
  | .lambda _ body => body.literals
  | .app func args => func.literals ++ literalsOf args
  | .empty => []

/-- The texts of the literals of the branches of a conditional. -/
def branchLiterals : List (Expr × Expr) → List String
  | [] => []
  | (question, answer) :: branches =>
    question.literals ++ answer.literals ++ branchLiterals branches

/-- The texts of the literals of several expressions. -/
def literalsOf : List Expr → List String
  | [] => []
  | e :: es => e.literals ++ literalsOf es

end

mutual

/-- The expression with the text of each of its literals changed. -/
def mapLiterals (f : String → String) : Expr → Expr
  | .literal text => .literal (f text)
  | .identifier name => .identifier name
  | .quote d => .quote (d.mapLiterals f)
  | .branch question answer => .branch (question.mapLiterals f) (answer.mapLiterals f)
  | .cond branches => .cond (mapBranchLiterals f branches)
  | .lambda params body => .lambda params (body.mapLiterals f)
  | .app func args => .app (func.mapLiterals f) (mapLiteralsOf f args)
  | .empty => .empty

/-- The branches of a conditional with the text of each of their literals changed. -/
def mapBranchLiterals (f : String → String) : List (Expr × Expr) → List (Expr × Expr)
  | [] => []
  | (question, answer) :: branches =>
    (question.mapLiterals f, answer.mapLiterals f) :: mapBranchLiterals f branches

/-- Several expressions with the text of each of their literals changed. -/
def mapLiteralsOf (f : String → String) : List Expr → List Expr
  | [] => []
  | e :: es => e.mapLiterals f :: mapLiteralsOf f es

end

mutual

/-- The branches of an expression that stand outside of a conditional, as the expression is read from left
to right. A branch comes before those that it has in it. -/
def bareBranches : Expr → List Expr
  | .literal _ => []
  | .identifier _ => []
  | .quote d => d.bareBranches
  | .branch question answer =>
    .branch question answer :: (question.bareBranches ++ answer.bareBranches)
  | .cond branches => bareInBranches branches
  | .lambda _ body => body.bareBranches
  | .app func args => func.bareBranches ++ bareBranchesOf args
  | .empty => []

/-- The branches outside of a conditional in the questions and answers of one. -/
def bareInBranches : List (Expr × Expr) → List Expr
  | [] => []
  | (question, answer) :: branches =>
    question.bareBranches ++ answer.bareBranches ++ bareInBranches branches

/-- The branches outside of a conditional in several expressions. -/
def bareBranchesOf : List Expr → List Expr
  | [] => []
  | e :: es => e.bareBranches ++ bareBranchesOf es

end

mutual

/-- The datum that an expression spells, however many digits its numerals have. A branch is a list
wherever it stands. -/
def toDatum : Expr → Datum
  | .literal text => .ofText text
  | .identifier name => .symbol name
  | .quote d => .list [.symbol Keyword.quote.word, d.toDatum]
  | .branch question answer => .list [question.toDatum, answer.toDatum]
  | .cond branches => .list (.symbol Keyword.cond.word :: branchesToData branches)
  | .lambda params body =>
    .list [.symbol Keyword.lambda.word, .list (params.map .symbol), body.toDatum]
  | .app func args => .list (func.toDatum :: toData args)
  | .empty => .list []

/-- The data that the branches of a conditional spell. -/
def branchesToData : List (Expr × Expr) → List Datum
  | [] => []
  | (question, answer) :: branches =>
    .list [question.toDatum, answer.toDatum] :: branchesToData branches

/-- The data that several expressions spell. -/
def toData : List Expr → List Datum
  | [] => []
  | e :: es => e.toDatum :: toData es

end

/-- No literal of the expression is a numeral of more digits than are read. -/
def NumeralsWithinLimit (e : Expr) : Prop :=
  ∀ text ∈ e.literals, Numeral.WithinLimit text

instance (e : Expr) : Decidable e.NumeralsWithinLimit :=
  inferInstanceAs (Decidable (∀ text ∈ e.literals, Numeral.WithinLimit text))

/-! ## Quoting -/

section

variable {α β : Type}

/-- The result of a step that refuses to quote the first of some expressions, if there are any. -/
def refusing (refused : List Expr) (result : α) : Except Fault α :=
  match refused with
  | [] => .ok result
  | found :: _ => .error (.unquotable found)

theorem refusing_bind (refused : List Expr) (a : α) {others : List Expr} {b : β}
    {rest : α → Except Fault β} (h : rest a = refusing others b) :
    (refusing refused a >>= rest) = refusing (refused ++ others) b := by
  cases refused with
  | nil => exact h
  | cons found refused => rfl

theorem refusing_bind_ok (refused : List Expr) (a : α) (f : α → β) :
    (refusing refused a >>= fun a => .ok (f a)) = refusing refused (f a) := by
  cases refused with
  | nil => rfl
  | cons found refused => rfl

end

mutual

/-- Without a limit on frames an expression is quoted as the datum that it spells, and the first branch
outside of a conditional is refused. -/
theorem datum_eq : ∀ e : Expr, e.NumeralsWithinLimit →
    e.datum .unlimited = refusing e.bareBranches e.toDatum
  | .literal text, h => by
    have htext : Numeral.WithinLimit text := h text (List.mem_singleton_self text)
    rw [datum, Datum.ofAtom_of_withinLimit htext, bareBranches, toDatum]
    rfl
  | .identifier name, _ => by
    rw [datum, bareBranches, toDatum]
    rfl
  | .quote d, h => by
    have hd := datum_eq d h
    rw [datum, Headroom.below_unlimited, hd, bareBranches, toDatum]
    exact refusing_bind_ok _ _ _
  | .branch question answer, _ => by
    rw [datum, bareBranches]
    rfl
  | .cond branches, h => by
    have hbranches := branchData_eq branches h
    rw [datum, Headroom.below_unlimited, hbranches, bareBranches, toDatum]
    exact refusing_bind_ok _ _ _
  | .lambda params body, h => by
    have hbody := datum_eq body h
    rw [datum, Headroom.below_unlimited, hbody, bareBranches, toDatum]
    exact refusing_bind_ok _ _ _
  | .app func args, h => by
    obtain ⟨hfunc, hargs⟩ := List.forall_mem_append.1 h
    rw [datum, Headroom.below_unlimited, Headroom.below_unlimited, datum_eq func hfunc,
      dataOf_eq args hargs, bareBranches, toDatum]
    exact refusing_bind _ _ (refusing_bind_ok _ _ _)
  | .empty, _ => by
    rw [datum, bareBranches, toDatum]
    rfl

theorem branchData_eq : ∀ branches : List (Expr × Expr),
    (∀ text ∈ branchLiterals branches, Numeral.WithinLimit text) →
      branchData .unlimited branches = refusing (bareInBranches branches) (branchesToData branches)
  | [], _ => by
    rw [branchData, bareInBranches, branchesToData]
    rfl
  | (question, answer) :: branches, h => by
    obtain ⟨hclause, hbranches⟩ := List.forall_mem_append.1 h
    obtain ⟨hquestion, hanswer⟩ := List.forall_mem_append.1 hclause
    rw [branchData, datum_eq question hquestion, datum_eq answer hanswer,
      branchData_eq branches hbranches, bareInBranches, branchesToData, List.append_assoc]
    exact refusing_bind _ _ (refusing_bind _ _ (refusing_bind_ok _ _ _))

theorem dataOf_eq : ∀ es : List Expr, (∀ text ∈ literalsOf es, Numeral.WithinLimit text) →
    dataOf .unlimited es = refusing (bareBranchesOf es) (toData es)
  | [], _ => by
    rw [dataOf, bareBranchesOf, toData]
    rfl
  | e :: es, h => by
    obtain ⟨he, hes⟩ := List.forall_mem_append.1 h
    rw [dataOf, datum_eq e he, dataOf_eq es hes, bareBranchesOf, toData]
    exact refusing_bind _ _ (refusing_bind_ok _ _ _)

end

/-! ## Texts of what is quoted -/

mutual

/-- What an expression spells is printed as the expression is, with its literals in canonical form. -/
theorem spelling_toDatum : ∀ e : Expr,
    e.toDatum.spelling = (e.mapLiterals Numeral.canonical).spelling
  | .literal text => by rw [toDatum, mapLiterals, spelling, Datum.spelling_ofText]
  | .identifier name => by rw [toDatum, mapLiterals, spelling, Datum.spelling]
  | .quote d => by
    rw [toDatum, mapLiterals, spelling, ← spelling_toDatum d, Datum.spelling]
    rfl
  | .branch question answer => by
    rw [toDatum, mapLiterals, spelling, ← spelling_toDatum question, ← spelling_toDatum answer,
      Datum.spelling]
    rfl
  | .cond branches => by
    rw [toDatum, mapLiterals, spelling, ← spellings_branchesToData branches, Datum.spelling,
      Datum.spellings, Datum.spelling]
  | .lambda params body => by
    rw [toDatum, mapLiterals, spelling, ← spelling_toDatum body, Datum.spelling,
      Datum.spellings_eq_map]
    simp [Datum.spelling, Datum.spellings_eq_map]
  | .app func args => by
    rw [toDatum, mapLiterals, spelling, ← spelling_toDatum func, ← spellings_toData args,
      Datum.spelling, Datum.spellings]
  | .empty => rfl

theorem spellings_branchesToData : ∀ branches : List (Expr × Expr),
    Datum.spellings (branchesToData branches) =
      branchSpellings (mapBranchLiterals Numeral.canonical branches)
  | [] => rfl
  | (question, answer) :: branches => by
    rw [branchesToData, mapBranchLiterals, branchSpellings, ← spelling_toDatum question,
      ← spelling_toDatum answer, ← spellings_branchesToData branches]
    rfl

theorem spellings_toData : ∀ es : List Expr,
    Datum.spellings (toData es) = spellings (mapLiteralsOf Numeral.canonical es)
  | [] => rfl
  | e :: es => by
    rw [toData, mapLiteralsOf, spellings, Datum.spellings, spelling_toDatum e, spellings_toData es]

end

mutual

/-- What an expression spells can be written, if its literals are within the limit. -/
theorem isWritable_toDatum : ∀ e : Expr, e.NumeralsWithinLimit → e.toDatum.isWritable = true
  | .literal text, h => by
    rw [toDatum]
    exact Datum.isWritable_ofText (h text (List.mem_singleton_self text))
  | .identifier name, _ => rfl
  | .quote d, h => by
    have hd := isWritable_toDatum d h
    rw [toDatum, Datum.isWritable, Datum.areWritable_eq_true_iff]
    simp [hd, Datum.isWritable]
  | .branch question answer, h => by
    obtain ⟨hquestion, hanswer⟩ := List.forall_mem_append.1 h
    have hq := isWritable_toDatum question hquestion
    have ha := isWritable_toDatum answer hanswer
    rw [toDatum, Datum.isWritable, Datum.areWritable_eq_true_iff]
    simp [hq, ha]
  | .cond branches, h => by
    have hbranches := areWritable_branchesToData branches h
    rw [toDatum, Datum.isWritable, Datum.areWritable, hbranches]
    rfl
  | .lambda params body, h => by
    have hbody := isWritable_toDatum body h
    rw [toDatum, Datum.isWritable, Datum.areWritable_eq_true_iff]
    simp [hbody, Datum.isWritable, Datum.areWritable_eq_true_iff]
  | .app func args, h => by
    obtain ⟨hfunc, hargs⟩ := List.forall_mem_append.1 h
    rw [toDatum, Datum.isWritable, Datum.areWritable, isWritable_toDatum func hfunc,
      areWritable_toData args hargs]
    rfl
  | .empty, _ => rfl

theorem areWritable_branchesToData : ∀ branches : List (Expr × Expr),
    (∀ text ∈ branchLiterals branches, Numeral.WithinLimit text) →
      Datum.areWritable (branchesToData branches) = true
  | [], _ => rfl
  | (question, answer) :: branches, h => by
    obtain ⟨hclause, hbranches⟩ := List.forall_mem_append.1 h
    obtain ⟨hquestion, hanswer⟩ := List.forall_mem_append.1 hclause
    have hq := isWritable_toDatum question hquestion
    have ha := isWritable_toDatum answer hanswer
    rw [branchesToData, Datum.areWritable, areWritable_branchesToData branches hbranches,
      Bool.and_true, Datum.isWritable, Datum.areWritable_eq_true_iff]
    simp [hq, ha]

theorem areWritable_toData : ∀ es : List Expr,
    (∀ text ∈ literalsOf es, Numeral.WithinLimit text) → Datum.areWritable (toData es) = true
  | [], _ => rfl
  | e :: es, h => by
    obtain ⟨he, hes⟩ := List.forall_mem_append.1 h
    rw [toData, Datum.areWritable, isWritable_toDatum e he, areWritable_toData es hes]
    rfl

end

/-- The value of a quoted expression has the text of the expression, with its literals in canonical
form. -/
theorem source_place_toDatum {e : Expr} (h : e.NumeralsWithinLimit) (next : Nat) :
    (e.toDatum.place next).1.source = .ok (e.mapLiterals Numeral.canonical).source := by
  rw [Datum.source_place (isWritable_toDatum e h), spelling_toDatum, source_spelling]

/-! ## Quoted S-expressions -/

mutual

/-- The literals of an expression are some of the atoms that spell it, in order. -/
theorem literals_sublist_atoms : ∀ e : Expr, e.literals.Sublist e.spelling.atoms
  | .literal text => List.Sublist.refl [text]
  | .identifier _ | .empty => List.nil_sublist _
  | .quote d => by
    have hd := literals_sublist_atoms d
    rw [literals, spelling]
    simpa using hd.cons _
  | .branch question answer => by
    have hquestion := literals_sublist_atoms question
    have hanswer := literals_sublist_atoms answer
    rw [literals, spelling]
    simpa using hquestion.append hanswer
  | .cond branches => by
    have hbranches := branchLiterals_sublist_atoms branches
    rw [literals, spelling, SExpr.atoms_list, SExpr.atomsOf_cons]
    exact List.sublist_append_of_sublist_right hbranches
  | .lambda params body => by
    have hbody := literals_sublist_atoms body
    rw [literals, spelling]
    simpa using (List.sublist_append_of_sublist_right hbody).cons _
  | .app func args => by
    rw [literals, spelling, SExpr.atoms_list, SExpr.atomsOf_cons]
    exact (literals_sublist_atoms func).append (literalsOf_sublist_atoms args)

theorem branchLiterals_sublist_atoms : ∀ branches : List (Expr × Expr),
    (branchLiterals branches).Sublist (SExpr.atomsOf (branchSpellings branches))
  | [] => List.nil_sublist _
  | (question, answer) :: branches => by
    have hquestion := literals_sublist_atoms question
    have hanswer := literals_sublist_atoms answer
    have hbranches := branchLiterals_sublist_atoms branches
    rw [branchLiterals, branchSpellings, SExpr.atomsOf_cons, SExpr.atoms_list, SExpr.atomsOf_cons,
      SExpr.atomsOf_cons, SExpr.atomsOf_nil, List.append_nil]
    exact (hquestion.append hanswer).append hbranches

theorem literalsOf_sublist_atoms : ∀ es : List Expr,
    (literalsOf es).Sublist (SExpr.atomsOf (spellings es))
  | [] => List.nil_sublist _
  | e :: es => by
    rw [literalsOf, spellings, SExpr.atomsOf_cons]
    exact (literals_sublist_atoms e).append (literalsOf_sublist_atoms es)

end

mutual

/-- Quoting an S-expression gives the datum that it spells. -/
theorem toDatum_ofQuoted : ∀ node : SExpr, (ofQuoted node).toDatum = .ofSExpr node
  | .atom text => by rw [ofQuoted, toDatum, Datum.ofSExpr]
  | .list [] => by
    rw [ofQuoted]
    rfl
  | .list (head :: rest) => by
    rw [ofQuoted, toDatum, toDatum_ofQuoted head, toData_ofQuotedItems rest, Datum.ofSExpr,
      Datum.ofSExprs]

theorem toData_ofQuotedItems : ∀ items : List SExpr,
    toData (ofQuotedItems items) = Datum.ofSExprs items
  | [] => rfl
  | item :: items => by
    rw [ofQuotedItems, toData, toDatum_ofQuoted item, toData_ofQuotedItems items, Datum.ofSExprs]

end

mutual

theorem bareBranches_ofQuoted : ∀ node : SExpr, (ofQuoted node).bareBranches = []
  | .atom text => by rw [ofQuoted, bareBranches]
  | .list [] => by rw [ofQuoted, bareBranches]
  | .list (head :: rest) => by
    rw [ofQuoted, bareBranches, bareBranches_ofQuoted head, bareBranchesOf_ofQuotedItems rest,
      List.append_nil]

theorem bareBranchesOf_ofQuotedItems : ∀ items : List SExpr,
    bareBranchesOf (ofQuotedItems items) = []
  | [] => rfl
  | item :: items => by
    rw [ofQuotedItems, bareBranchesOf, bareBranches_ofQuoted item,
      bareBranchesOf_ofQuotedItems items, List.append_nil]

end

/-- An expression has no longer numerals than the S-expression that spells it. -/
theorem numeralsWithinLimit_of_spelling {e : Expr} (h : e.spelling.NumeralsWithinLimit) :
    e.NumeralsWithinLimit :=
  fun text htext => h text ((literals_sublist_atoms e).mem htext)

theorem datum_ofQuoted_eq {node : SExpr} (h : node.NumeralsWithinLimit) :
    (ofQuoted node).datum .unlimited = .ok (.ofSExpr node) := by
  rw [← spelling_ofQuoted node] at h
  rw [datum_eq _ (numeralsWithinLimit_of_spelling h), bareBranches_ofQuoted, toDatum_ofQuoted]
  rfl

theorem isWritable_ofSExpr {node : SExpr} (h : node.NumeralsWithinLimit) :
    (Datum.ofSExpr node).isWritable = true := by
  rw [← spelling_ofQuoted node] at h
  rw [← toDatum_ofQuoted]
  exact isWritable_toDatum _ (numeralsWithinLimit_of_spelling h)

end Expr

/-- Let no numeral have more digits than are read, and frames have no limit. An expression without branches
outside of a conditional is quoted as a datum that prints as the source of the expression, with its integer
literals in canonical form. In any other expression the first of these branches is refused. An S-expression
is quoted as data that print as its source, with its integers in canonical form. -/
theorem quoted_expressions_print_as_their_source :
    (∀ e : Expr, e.NumeralsWithinLimit → e.bareBranches = [] →
      ∃ d, e.datum .unlimited = .ok d ∧
        ∀ next, (d.place next).1.source = .ok (e.mapLiterals Numeral.canonical).source) ∧
      (∀ (e found : Expr) (others : List Expr), e.NumeralsWithinLimit →
        e.bareBranches = found :: others →
        ∃ fault, e.datum .unlimited = .error fault ∧ fault.kind = .build ∧
          fault.message = "Cannot quote " ++ found.debugForm) ∧
      ∀ node : SExpr, node.NumeralsWithinLimit →
        ∃ e d, Expr.buildQuoted .unlimited node = .ok e ∧ e.datum .unlimited = .ok d ∧
          ∀ next, (d.place next).1.source = .ok (node.mapAtoms Numeral.canonical).source := by
  refine ⟨fun e h hbare => ?_, fun e found others h hbare => ?_, fun node h => ?_⟩
  · refine ⟨e.toDatum, ?_, Expr.source_place_toDatum h⟩
    rw [Expr.datum_eq e h, hbare, Expr.refusing]
  · refine ⟨.unquotable found, ?_, rfl, rfl⟩
    rw [Expr.datum_eq e h, hbare, Expr.refusing]
  · refine ⟨.ofQuoted node, .ofSExpr node, rfl, Expr.datum_ofQuoted_eq h, fun next => ?_⟩
    rw [Datum.source_place (Expr.isWritable_ofSExpr h), Datum.spelling_ofSExpr]

/-- A lambda with numerals for a parameter, an identifier and literals; an application with a branch as an
answer and another as an argument; and a malformed lambda, which is no less data than others. -/
theorem quoted_forms_with_numerals :
    let e : Expr := .lambda ["x", "07"]
      (.cond [(.literal "+07", .app (.identifier "-0") [.literal "-0", .empty]),
        (.quote (.literal "#t"), .cond [])])
    let refused : Expr := .app (.literal "f")
      [.cond [(.literal "1", .branch (.literal "b") .empty)], .branch (.literal "c") .empty]
    let node : SExpr := .list [.atom "lambda", .atom "007", .list []]
    (∃ d, e.datum .unlimited = .ok d ∧
      (d.place 3).1.source = .ok "(lambda (x 07) (cond (7 (-0 0 ())) ((quote #t) (cond))))") ∧
      (∃ fault, refused.datum .unlimited = .error fault ∧ fault.kind = .build ∧
        fault.message = "Cannot quote Branch(question=Literal(text='b'), answer=EmptyList())") ∧
      ∃ quoted d, Expr.buildQuoted .unlimited node = .ok quoted ∧
        quoted.datum .unlimited = .ok d ∧ (d.place 0).1.source = .ok "(lambda 7 ())" := by
  intro e refused node
  obtain ⟨hprints, hrefuses, hquotes⟩ := quoted_expressions_print_as_their_source
  have hsource : (e.mapLiterals Numeral.canonical).source =
      "(lambda (x 07) (cond (7 (-0 0 ())) ((quote #t) (cond))))" := by decide
  have hmessage : (Expr.branch (.literal "b") .empty).debugForm =
      "Branch(question=Literal(text='b'), answer=EmptyList())" := by decide
  have hnode : (node.mapAtoms Numeral.canonical).source = "(lambda 7 ())" := by decide
  obtain ⟨d, hd, hprinted⟩ := hprints e (by decide) rfl
  obtain ⟨fault, hfault, hkind, htext⟩ := hrefuses refused _ _ (by decide) rfl
  obtain ⟨quoted, d', hquoted, hd', hprinted'⟩ := hquotes node (by decide)
  rw [hmessage] at htext
  refine ⟨⟨d, hd, ?_⟩, ⟨fault, hfault, hkind, htext⟩, quoted, d', hquoted, hd', ?_⟩
  · rw [hprinted, hsource]
  · rw [hprinted', hnode]

end MiniLisp
