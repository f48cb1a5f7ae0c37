import MiniLisp.Value.Equality

/-!
The two equalities of values. Equality as programs see it is an equivalence relation, and the looser one is
the same equality once every boolean is taken for its number. So they differ exactly where a boolean of one
value stands beside the number of the same worth in the other (`equality_and_loose_equality`).
-/

namespace MiniLisp

namespace Value

/-! ## What equality looks at -/

/-- The value without what equality does not look at: the cells of pairs, and all of closures but their
cells. -/
def outline : Value → Value
  | .pair _ head tail => .pair 0 head.outline tail.outline
  | .closure cell _ _ _ => .closure cell [] .empty []
  | v => v

theorem isEqual_iff_outline_eq {a b : Value} : a.isEqual b = true ↔ a.outline = b.outline := by
  induction a generalizing b with
  | pair cell head tail ihhead ihtail =>
    cases b with
    | pair cell' head' tail' => simp [isEqual, outline, ihhead, ihtail]
    | _ => simp [isEqual, outline]
  | _ => cases b <;> simp [isEqual, outline]

theorem isEqual_equivalence : Equivalence fun a b : Value => a.isEqual b = true where
  refl := isEqual_refl
  symm h := isEqual_iff_outline_eq.2 (isEqual_iff_outline_eq.1 h).symm
  trans h h' :=
    isEqual_iff_outline_eq.2 ((isEqual_iff_outline_eq.1 h).trans (isEqual_iff_outline_eq.1 h'))

/-! ## Booleans as numbers -/

/-- The value with its number in place of every boolean that it is or has among the parts of its pairs:
one for true, and zero for false. -/
def numeric : Value → Value
  | .bool b => .int b.toNat
  | .pair cell head tail => .pair cell head.numeric tail.numeric
  | v => v

theorem looselyEqual_eq_isEqual_numeric (a b : Value) :
    a.looselyEqual b = a.numeric.isEqual b.numeric := by
  induction a generalizing b with
  | pair cell head tail ihhead ihtail =>
    cases b with
    | pair cell' head' tail' => rw [looselyEqual, numeric, numeric, isEqual, ihhead, ihtail]
    | _ => rfl
  | bool p =>
    cases b with
    | bool q => cases p <;> cases q <;> rfl
    | _ => rfl
  | _ => cases b <;> rfl

theorem outline_numeric (v : Value) : v.numeric.outline = v.outline.numeric := by
  induction v with
  | pair cell head tail ihhead ihtail => rw [numeric, outline, outline, numeric, ihhead, ihtail]
  | _ => rfl

/-- Equal values are loosely equal. -/
theorem looselyEqual_of_isEqual {a b : Value} (h : a.isEqual b = true) : a.looselyEqual b = true := by
  rw [looselyEqual_eq_isEqual_numeric, isEqual_iff_outline_eq, outline_numeric, outline_numeric,
    isEqual_iff_outline_eq.1 h]

/-! ## Where the two differ -/

/-- The first two values stand at the same place of the other two. -/
inductive Beside (x y : Value) : Value → Value → Prop
  | here : Beside x y x y
  | head {cell cell' : Nat} {head head' tail tail' : Value} (h : Beside x y head head') :
      Beside x y (.pair cell head tail) (.pair cell' head' tail')
  | tail {cell cell' : Nat} {head head' tail tail' : Value} (h : Beside x y tail tail') :
      Beside x y (.pair cell head tail) (.pair cell' head' tail')

/-- At some place a boolean of the one value stands beside the number of the same worth in the other. -/
def BooleanMeetsNumber (a b : Value) : Prop :=
  ∃ p : Bool, Beside (.bool p) (.int p.toNat) a b ∨ Beside (.int p.toNat) (.bool p) a b

/-- What stands at the same place of equal values is equal. -/
theorem Beside.isEqual {x y a b : Value} (h : Beside x y a b) (hequal : a.isEqual b = true) :
    x.isEqual y = true := by
  induction h with
  | here => exact hequal
  | head _ ih => exact ih (Bool.and_eq_true_iff.1 hequal).1
  | tail _ ih => exact ih (Bool.and_eq_true_iff.1 hequal).2

theorem BooleanMeetsNumber.isEqual_eq_false {a b : Value} (h : BooleanMeetsNumber a b) :
    a.isEqual b = false := by
  refine Bool.eq_false_iff.2 fun hequal => ?_
  obtain ⟨p, h | h⟩ := h
  · exact absurd (h.isEqual hequal) Bool.false_ne_true
  · exact absurd (h.isEqual hequal) Bool.false_ne_true

/-- Loosely equal values that are not equal differ by a boolean beside its number. -/
theorem booleanMeetsNumber_of_looselyEqual {a b : Value} (hloose : a.looselyEqual b = true)
    (hequal : a.isEqual b = false) : BooleanMeetsNumber a b := by
  induction a generalizing b with
  | pair cell head tail ihhead ihtail =>
    cases b with
    | pair cell' head' tail' =>
      rw [looselyEqual, Bool.and_eq_true] at hloose
      rw [Value.isEqual, Bool.and_eq_false_iff] at hequal
      rcases hequal with hhead | htail
      · obtain ⟨p, hplace⟩ := ihhead hloose.1 hhead
        exact ⟨p, hplace.imp .head .head⟩
      · obtain ⟨p, hplace⟩ := ihtail hloose.2 htail
        exact ⟨p, hplace.imp .tail .tail⟩
    | _ => cases hloose
  | bool p =>
    cases b with
    | int n =>
      rw [looselyEqual, beq_iff_eq] at hloose
      exact ⟨p, .inl (hloose ▸ .here)⟩
    | bool q => exact absurd (hequal.symm.trans hloose) Bool.false_ne_true
    | _ => cases hloose
  | int n =>
    cases b with
    | bool p =>
      rw [looselyEqual, beq_iff_eq] at hloose
      exact ⟨p, .inr (hloose ▸ .here)⟩
    | int m => exact absurd (hequal.symm.trans hloose) Bool.false_ne_true
    | _ => cases hloose
  -- On values of any other kind the two equalities are one.
  | _ => cases b <;> exact absurd (hequal.symm.trans hloose) Bool.false_ne_true

/-- The two equalities differ exactly on loosely equal values in which a boolean meets its number. -/
theorem isEqual_ne_looselyEqual_iff {a b : Value} :
    a.isEqual b ≠ a.looselyEqual b ↔ a.looselyEqual b = true ∧ BooleanMeetsNumber a b := by
  constructor
  · intro hdiffer
    cases hequal : a.isEqual b with
    | true => exact absurd (hequal.trans (looselyEqual_of_isEqual hequal).symm) hdiffer
    | false =>
      rw [hequal] at hdiffer
      have hloose : a.looselyEqual b = true := Bool.of_not_eq_false hdiffer.symm
      exact ⟨hloose, booleanMeetsNumber_of_looselyEqual hloose hequal⟩
  · rintro ⟨hloose, hmeets⟩
    rw [hmeets.isEqual_eq_false, hloose]
    exact Bool.false_ne_true

/-- Equality is an equivalence relation, and passing over shared parts does not change it. Values are loosely
equal exactly if they are equal with numbers in place of booleans. So equal values are loosely equal, and
the two equalities differ exactly on loosely equal values in which, at some place, a boolean meets the
number of the same worth. -/
theorem equality_and_loose_equality :
    (Equivalence fun a b : Value => a.isEqual b = true) ∧
      (∀ a b : Value, a.isEqualShared b = a.isEqual b) ∧
      (∀ a b : Value, a.looselyEqual b = true ↔ a.numeric.isEqual b.numeric = true) ∧
      (∀ a b : Value, a.isEqual b = true → a.looselyEqual b = true) ∧
      ∀ a b : Value,
        a.isEqual b ≠ a.looselyEqual b ↔ a.looselyEqual b = true ∧ BooleanMeetsNumber a b :=
  ⟨isEqual_equivalence, isEqualShared_eq,
    fun a b => Bool.eq_iff_iff.1 (looselyEqual_eq_isEqual_numeric a b),
    fun _ _ => looselyEqual_of_isEqual, fun _ _ => isEqual_ne_looselyEqual_iff⟩

/-- Lists of a closure and a boolean: the closure keeps the boolean that it captured, and the other one
stands beside its number. -/
theorem equality_of_lists_with_one_closure :
    let f : Value := .closure 4 ["x"] (.literal "x") [[("y", .bool true)]]
    let a : Value := .pair 0 f (.pair 1 (.bool true) .nil)
    let b : Value := .pair 2 f (.pair 3 (.int 1) .nil)
    let c : Value := .pair 5 f (.pair 6 (.bool true) .nil)
    a.isEqual c = true ∧ c.isEqual a = true ∧ a.looselyEqual c = true ∧
      a.looselyEqual b = true ∧ a.isEqual b = false ∧ BooleanMeetsNumber a b ∧
      a.numeric = .pair 0 f (.pair 1 (.int 1) .nil) := by
  intro f a b c
  obtain ⟨⟨-, hsymm, -⟩, -, -, hloose, hdiffer⟩ := equality_and_loose_equality
  have hac : a.isEqual c = true := by decide
  have hab : a.isEqual b ≠ a.looselyEqual b := by decide
  obtain ⟨hlooseab, hmeets⟩ := (hdiffer a b).1 hab
  exact ⟨hac, hsymm hac, hloose a c hac, hlooseab, Bool.eq_false_iff.2 (hlooseab ▸ hab), hmeets, rfl⟩

end Value

end MiniLisp
