import MiniLisp.Proofs.Evaluation.Agreement
import MiniLisp.Proofs.Reachability.Cells

/-!
Cells of what a run comes to. A run makes pairs and closures in the cells from its counter on, and leaves the
counter behind all of them; so if the environment of a run has been made before it, then what it comes to
has been made before whatever is run next (`eval_isBefore`).
-/

namespace MiniLisp

/-! ## Data -/

namespace Datum

mutual

/-- The counter never goes back, and the pairs of the value are made in cells before it. -/
theorem place_cells : ∀ (d : Datum) (next : Nat),
    next ≤ (d.place next).2 ∧ (d.place next).1.AllCells (· < (d.place next).2)
  | .int _, _ => ⟨Nat.le_refl _, Value.allCells_of_cell?_eq_none rfl⟩
  | .bool _, _ => ⟨Nat.le_refl _, Value.allCells_of_cell?_eq_none rfl⟩
  | .symbol _, _ => ⟨Nat.le_refl _, Value.allCells_of_cell?_eq_none rfl⟩
  | .list items, next => by
    simp only [place]
    exact placeItems_cells items next

theorem placeItems_cells : ∀ (items : List Datum) (next : Nat),
    next ≤ (placeItems items next).2 ∧
      (placeItems items next).1.AllCells (· < (placeItems items next).2)
  | [], _ => ⟨Nat.le_refl _, Value.allCells_of_cell?_eq_none rfl⟩
  | item :: items, next => by
    obtain ⟨hle, hhead⟩ := place_cells item next
    obtain ⟨hle', htail⟩ := placeItems_cells items (item.place next).2
    simp only [placeItems]
    refine ⟨by omega, .pair (Nat.lt_succ_self _) (hhead.imp fun c hc => ?_) (htail.imp fun c hc => ?_)⟩
    · omega
    · omega

end

theorem le_place (d : Datum) (next : Nat) : next ≤ (d.place next).2 :=
  (d.place_cells next).1

end Datum

/-! ## Runs -/

/-- The results of the outcome are made in cells before its counter, which is not behind the given one. -/
inductive MadeBy {α : Type} (made : Nat → α → Prop) (next : Nat) : Outcome α → Prop
  | ok {a : α} {m : Nat} (hle : next ≤ m) (h : made m a) : MadeBy made next (.ok a m)
  | error {fault : Fault} {m : Nat} : MadeBy made next (.error fault m)

theorem MadeBy.of_le {α : Type} {made : Nat → α → Prop} {next m : Nat} {o : Outcome α} (hle : next ≤ m)
    (h : MadeBy made m o) : MadeBy made next o := by
  cases h with
  | ok hle' h => exact .ok (hle.trans hle') h
  | error => exact .error

/-- The value is made in cells before that one. -/
abbrev Value.IsBefore (n : Nat) (v : Value) : Prop :=
  v.AllCells (· < n)

theorem Primitive.Yields.madeBy {op : Primitive} {args : List Value} {next : Nat} {o : Outcome Value}
    (h : op.Yields args next o) (hargs : ∀ v ∈ args, v.IsBefore next) :
    MadeBy Value.IsBefore next o := by
  cases h with
  | cons =>
    have hhead := hargs _ (List.mem_cons_self ..)
    have htail := hargs _ (List.mem_cons_of_mem _ (List.mem_cons_self ..))
    refine .ok (Nat.le_succ _) (.pair (Nat.lt_succ_self _) (hhead.imp fun c hc => ?_)
      (htail.imp fun c hc => ?_))
    · exact Nat.lt_succ_of_lt hc
    · exact Nat.lt_succ_of_lt hc
  | cdr => exact .ok (Nat.le_refl _) (hargs _ (List.mem_cons_self ..)).tail
  | eq | test => exact .ok (Nat.le_refl _) (Value.allCells_of_cell?_eq_none rfl)
  | number hf =>
    refine .ok (Nat.le_refl _) (Value.allCells_of_cell?_eq_none ?_)
    cases op <;> cases hf <;> rfl
  | notPair | notNumber | count => exact .error

theorem Resolves.isBefore {env : Environment} {text : String} {v : Value} {next : Nat}
    (h : Resolves env text (.ok v)) (henv : env.IsBefore next) : v.IsBefore next := by
  cases h with
  | bound hbinds => exact henv.get? (binds_iff.1 hbinds)
  | integer | isTrue | isFalse | primitive => exact Value.allCells_of_cell?_eq_none rfl

-- By recursion on the derivation: each part goes on from the counter that the part before has left.
mutual

theorem Evaluates.madeBy : ∀ {e : Expr} {env : Environment} {next : Nat} {o : Outcome Value},
    Evaluates e env next o → env.IsBefore next → MadeBy Value.IsBefore next o
  | _, _, _, _, .literal h, henv => .ok (Nat.le_refl _) (h.isBefore henv)
  | _, _, _, _, .identifier h, henv => .ok (Nat.le_refl _) (henv.get? (binds_iff.1 h))
  | _, _, _, _, .quote _, _ => .ok (Datum.place_cells _ _).1 (Datum.place_cells _ _).2
  | _, _, _, _, .cond h, henv => h.madeBy henv
  | _, _, _, _, .lambda, henv =>
    .ok (Nat.le_succ _) (.closure (Nat.lt_succ_self _) (henv.mono (Nat.le_succ _)))
  | _, _, _, _, .app hfunc hargs happly, henv => by
    cases hfunc.madeBy henv with
    | ok hle hhead =>
      cases hargs.madeBy (henv.mono hle) with
      | ok hle' hvalues =>
        have hcallee := hhead.imp fun c hc => Nat.lt_of_lt_of_le hc hle'
        exact (happly.madeBy hcallee hvalues).of_le (hle.trans hle')
  | _, _, _, _, .literalFails _, _ => .error
  | _, _, _, _, .identifierUnbound _, _ => .error
  | _, _, _, _, .quoteFails _, _ => .error
  | _, _, _, _, .headFails _, _ => .error
  | _, _, _, _, .argFails _ _, _ => .error
  | _, _, _, _, .empty, _ => .error
  | _, _, _, _, .branch, _ => .error

theorem EvaluatesAll.madeBy : ∀ {es : List Expr} {env : Environment} {next : Nat}
    {o : Outcome (List Value)}, EvaluatesAll es env next o → env.IsBefore next →
      MadeBy (fun m vs => ∀ v ∈ vs, v.IsBefore m) next o
  | _, _, _, _, .nil, _ => .ok (Nat.le_refl _) (by simp)
  | _, _, _, _, .cons h hrest, henv => by
    cases h.madeBy henv with
    | ok hle hfirst =>
      cases hrest.madeBy (henv.mono hle) with
      | ok hle' hvalues =>
        have hvalue := hfirst.imp fun c hc => Nat.lt_of_lt_of_le hc hle'
        exact .ok (hle.trans hle') (List.forall_mem_cons.2 ⟨hvalue, hvalues⟩)
  | _, _, _, _, .headFails _, _ => .error
  | _, _, _, _, .tailFails _ _, _ => .error

theorem Chooses.madeBy : ∀ {whole : List (Expr × Expr)} {env : Environment}
    {rest : List (Expr × Expr)} {next : Nat} {o : Outcome Value}, Chooses whole env rest next o →
      env.IsBefore next → MadeBy Value.IsBefore next o
  | _, _, _, _, _, .selected h hanswer, henv => by
    cases h.madeBy henv with
    | ok hle _ => exact (hanswer.madeBy (henv.mono hle)).of_le hle
  | _, _, _, _, _, .passed h _ hrest, henv => by
    cases h.madeBy henv with
    | ok hle _ => exact (hrest.madeBy (henv.mono hle)).of_le hle
  | _, _, _, _, _, .exhausted, _ => .error
  | _, _, _, _, _, .questionFails _, _ => .error

theorem Applies.madeBy : ∀ {callee : Value} {args : List Value} {next : Nat} {o : Outcome Value},
    Applies callee args next o → callee.IsBefore next → (∀ v ∈ args, v.IsBefore next) →
      MadeBy Value.IsBefore next o
  | _, _, _, _, .primitive h, _, hargs => h.madeBy hargs
  | _, _, next, _, .closure _ h, hcallee, hargs => by
    have henv : Environment.IsBefore _ next := fun frame hframe binding hbinding =>
      hcallee.binding hframe hbinding
    exact h.madeBy (henv.extend fun b hb => hargs b.2 (List.of_mem_zip hb).2)
  | _, _, _, _, .closureCount _, _, _ => .error
  | _, _, _, _, .uncallable _, _, _ => .error

end

/-- What a run comes to is made in cells before the counter that it leaves. -/
theorem eval_isBefore {frames next m : Nat} {e : Expr} {env : Environment} {v : Value}
    (hrun : eval frames e env next = .ok v m) (henv : env.IsBefore next) :
    next ≤ m ∧ v.IsBefore m := by
  cases (Evaluates.of_eval hrun trivial).madeBy henv with
  | ok hle hv => exact ⟨hle, hv⟩

end MiniLisp
