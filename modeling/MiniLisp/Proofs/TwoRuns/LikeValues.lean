import MiniLisp.Proofs.TwoRuns.Likeness
import MiniLisp.Value.Shown

/-!
What programs can tell of values that resemble each other is the same: their kinds, how they compare, how
deep comparing and writing them goes, and, if texts have to be the same, their texts. What closures
have captured does not matter for this, so values that are alike resemble each other.
-/

namespace MiniLisp

theorem Value.isEqual_of_plain {v w : Value} (hv : v.cell? = none) (hw : w.cell?.isSome = true) :
    v.isEqual w = false ∧ w.isEqual v = false := by
  cases w with
  | pair =>
    cases v with
    | pair => cases hv
    | _ => exact ⟨rfl, rfl⟩
  | closure =>
    cases v with
    | closure => cases hv
    | _ => exact ⟨rfl, rfl⟩
  | _ => cases hw

theorem Value.isPair_of_plain {v : Value} (h : v.cell? = none) : v.isPair = false := by
  cases v with
  | pair => cases h
  | _ => rfl

theorem Value.comparisonFrames_of_plain {v w : Value} (h : v.isPair = false ∨ w.isPair = false) :
    v.comparisonFrames w = 1 := by
  rw [comparisonFrames]
  rintro i a b j a' b' rfl rfl
  rcases h with h | h <;> cases h

namespace Likeness

variable {L : Likeness} {v w v' w' : Value}

/-- Values that have the same parts, up to cells, the parameters and bodies of closures, and what closures
have captured. -/
inductive Resembles (L : Likeness) : Value → Value → Prop
  | plain {v : Value} (h : v.cell? = none) : Resembles L v v
  | pair {c d : Nat} {head head' tail tail' : Value} (hcell : L.cells c d)
      (hhead : Resembles L head head') (htail : Resembles L tail tail') :
      Resembles L (.pair c head tail) (.pair d head' tail')
  | closure {c d : Nat} {params others : List String} {body body' : Expr} {env env' : Environment}
      (hcell : L.cells c d) (hbinders : L.binders params others) (halike : L.alike body body') :
      Resembles L (.closure c params body env) (.closure d others body' env')

theorem Like.resembles (h : L.Like v w) : L.Resembles v w := by
  induction v generalizing w with
  | pair c head tail ihhead ihtail =>
    cases h.toCases with
    | plain hplain => exact .plain hplain
    | pair hcell hhead htail => exact .pair hcell (ihhead hhead) (ihtail htail)
  | closure c params body env _ =>
    cases h.toCases with
    | plain hplain => exact .plain hplain
    | closure hcell hbinders halike => exact .closure hcell hbinders halike
  | _ =>
    cases h.toCases with
    | plain hplain => exact .plain hplain

/-! ## Kinds -/

theorem Resembles.kind (h : L.Resembles v w) : v.kind = w.kind := by
  cases h <;> rfl

theorem Resembles.isTrue (h : L.Resembles v w) : v.isTrue = w.isTrue := by
  cases h <;> rfl

theorem Resembles.isPair (h : L.Resembles v w) : v.isPair = w.isPair := by
  cases h <;> rfl

theorem Resembles.isNil (h : L.Resembles v w) : v.isNil = w.isNil := by
  cases h <;> rfl

theorem Resembles.isNumber (h : L.Resembles v w) : v.isNumber = w.isNumber := by
  cases h <;> rfl

theorem Resembles.isCallable (h : L.Resembles v w) : v.isCallable = w.isCallable := by
  cases h <;> rfl

/-! ## Comparison -/

theorem Resembles.isEqual (h : L.Resembles v w) (h' : L.Resembles v' w') : v.isEqual v' = w.isEqual w' := by
  induction v generalizing w v' w' with
  | pair c head tail ihhead ihtail =>
    cases h with
    | plain hplain => cases hplain
    | pair hcell hhead htail =>
      cases h' with
      | plain hplain =>
        rw [(Value.isEqual_of_plain hplain rfl).2, (Value.isEqual_of_plain hplain rfl).2]
      | pair hcell' hhead' htail' =>
        rw [Value.isEqual, Value.isEqual, ihhead hhead hhead', ihtail htail htail']
      | closure => rfl
  | closure c params body env _ =>
    cases h with
    | plain hplain => cases hplain
    | closure hcell =>
      cases h' with
      | plain hplain =>
        rw [(Value.isEqual_of_plain hplain rfl).2, (Value.isEqual_of_plain hplain rfl).2]
      | pair => rfl
      | closure hcell' =>
        -- Closures compare by their cells, which are the same in both runs or in neither.
        rw [Value.isEqual, Value.isEqual, Bool.eq_iff_iff, beq_iff_eq, beq_iff_eq]
        exact L.cells_iff hcell hcell'
  | _ =>
    cases h with
    | plain hplain =>
      cases h' with
      | plain => rfl
      | pair | closure =>
        rw [(Value.isEqual_of_plain hplain rfl).1, (Value.isEqual_of_plain hplain rfl).1]

theorem Resembles.comparisonFrames (h : L.Resembles v w) (h' : L.Resembles v' w') :
    v.comparisonFrames v' = w.comparisonFrames w' := by
  induction v generalizing w v' w' with
  | pair c head tail ihhead ihtail =>
    cases h with
    | plain hplain => cases hplain
    | pair hcell hhead htail =>
      cases h' with
      | plain hplain =>
        have hother := Value.isPair_of_plain hplain
        rw [Value.comparisonFrames_of_plain (.inr hother),
          Value.comparisonFrames_of_plain (.inr hother)]
      | closure =>
        rw [Value.comparisonFrames_of_plain (.inr rfl), Value.comparisonFrames_of_plain (.inr rfl)]
      | pair hcell' hhead' htail' =>
        -- A pair is not compared with itself, and both runs compare a pair with itself or neither does.
        have hsame := L.cells_iff hcell hcell'
        rw [Value.comparisonFrames, Value.comparisonFrames, Value.isEqualShared_eq,
          Value.isEqualShared_eq, ihhead hhead hhead', ihtail htail htail', hhead.isEqual hhead']
        simp only [hsame]
  | _ =>
    have hw := h.isPair
    rw [Value.comparisonFrames_of_plain (.inl rfl), Value.comparisonFrames_of_plain (.inl hw.symm)]

/-! ## Frames of texts -/

theorem Resembles.isWritable (h : L.Resembles v w) : v.isWritable = w.isWritable := by
  induction v generalizing w with
  | pair c head tail ihhead ihtail =>
    cases h with
    | plain => rfl
    | pair hcell hhead htail =>
      rw [Value.isWritable, Value.isWritable, ihhead hhead, ihtail htail]
  | _ => cases h <;> rfl

theorem Resembles.debugFrames (h : L.Resembles v w) : v.debugFrames = w.debugFrames := by
  induction v generalizing w with
  | pair c head tail ihhead ihtail =>
    cases h with
    | plain => rfl
    | pair hcell hhead htail =>
      rw [Value.debugFrames, Value.debugFrames, ihhead hhead, ihtail htail, hhead.isWritable]
  | closure c params body env _ =>
    cases h with
    | plain => rfl
    | closure hcell hbinders halike =>
      rw [Value.debugFrames, Value.debugFrames, L.alike_sourceFrames halike]
  | _ => cases h; rfl

theorem Resembles.sourceFrames (h : L.Resembles v w) :
    v.sourceFrames = w.sourceFrames ∧ v.tailSourceFrames = w.tailSourceFrames := by
  induction v generalizing w with
  | pair c head tail ihhead ihtail =>
    cases h with
    | plain => exact ⟨rfl, rfl⟩
    | pair hcell hhead htail =>
      rw [Value.sourceFrames, Value.sourceFrames, Value.tailSourceFrames, Value.tailSourceFrames,
        (ihhead hhead).1, (ihtail htail).2, hhead.isWritable]
      exact ⟨rfl, rfl⟩
  | closure c params body env _ =>
    cases h with
    | plain => exact ⟨rfl, rfl⟩
    | closure => simp [Value.sourceFrames, Value.tailSourceFrames]
  | _ =>
    cases h with
    | plain => exact ⟨rfl, rfl⟩

/-! ## Texts -/

/-- Texts of values that resemble each other: both or neither can be written, and they are the same if texts have
to be. -/
inductive Texts (L : Likeness) : Except DigitLimit String → Except DigitLimit String → Prop
  | ok {s t : String} (h : L.sameTexts → s = t) : Texts L (.ok s) (.ok t)
  | error {limit : DigitLimit} : Texts L (.error limit) (.error limit)

namespace Texts

theorem refl (r : Except DigitLimit String) : L.Texts r r := by
  cases r with
  | ok s => exact .ok fun _ => rfl
  | error limit => exact .error

theorem eq {r r' : Except DigitLimit String} (h : L.Texts r r') (same : L.sameTexts) : r = r' := by
  cases h with
  | ok h => rw [h same]
  | error => rfl

theorem bind {r r' : Except DigitLimit String} {rest rest' : String → Except DigitLimit String}
    (h : L.Texts r r') (hrest : ∀ s t, (L.sameTexts → s = t) → L.Texts (rest s) (rest' t)) :
    L.Texts (r >>= rest) (r' >>= rest') := by
  cases h with
  | ok h => exact hrest _ _ h
  | error => exact .error

theorem pair {r r' q q' : Except DigitLimit String} (make : String → String → String)
    (h : L.Texts r r') (hq : L.Texts q q') :
    L.Texts (do let s ← r; let t ← q; .ok (make s t)) (do let s ← r'; let t ← q'; .ok (make s t)) := by
  refine h.bind fun s s' hs => hq.bind fun t t' ht => .ok fun same => ?_
  rw [hs same, ht same]

end Texts

theorem Resembles.debugForm (h : L.Resembles v w) : L.Texts v.debugForm w.debugForm := by
  induction v generalizing w with
  | pair c head tail ihhead ihtail =>
    cases h with
    | plain => exact .refl _
    | pair hcell hhead htail =>
      rw [Value.debugForm, Value.debugForm]
      exact .pair (fun s t => Text.record "Pair" [("head", s), ("tail", t)]) (ihhead hhead)
        (ihtail htail)
  | closure c params body env _ =>
    cases h with
    | plain => exact .refl _
    | closure hcell hbinders halike =>
      rw [Value.debugForm, Value.debugForm]
      refine .ok fun same => ?_
      rw [L.binders_eq same hbinders, L.alike_source same halike]
  | _ =>
    cases h with
    | plain => exact .refl _

theorem Resembles.source (h : L.Resembles v w) :
    L.Texts v.source w.source ∧ L.Texts v.tailSource w.tailSource := by
  induction v generalizing w with
  | pair c head tail ihhead ihtail =>
    cases h with
    | plain => exact ⟨.refl _, .refl _⟩
    | pair hcell hhead htail =>
      rw [Value.source, Value.source, Value.tailSource, Value.tailSource]
      exact ⟨.pair (fun s t => "(" ++ s ++ t ++ ")") (ihhead hhead).1 (ihtail htail).2,
        .pair (fun s t => " " ++ s ++ t) (ihhead hhead).1 (ihtail htail).2⟩
  | closure c params body env _ =>
    cases h with
    | plain => exact ⟨.refl _, .refl _⟩
    | closure hcell hbinders =>
      rw [Value.source, Value.source, Value.tailSource, Value.tailSource]
      exact ⟨.ok fun same => by rw [L.binders_eq same hbinders],
        .ok fun same => by rw [L.binders_eq same hbinders]⟩
  | _ =>
    cases h with
    | plain => exact ⟨.refl _, .refl _⟩

/-! ## Faults -/

theorem Faults.refl (L : Likeness) (f : Fault) : L.Faults f f :=
  ⟨rfl, Iff.rfl, fun _ => rfl⟩

theorem Faults.of_kind {f g : Fault} (kind : FaultKind) (hf : f.kind = kind) (hg : g.kind = kind)
    (hdepth : kind ≠ .depth) (hmessage : L.sameTexts → f.message = g.message) : L.Faults f g := by
  refine ⟨hf.trans hg.symm, ⟨?_, ?_⟩, hmessage⟩
  · rintro rfl
    exact absurd hf.symm hdepth
  · rintro rfl
    exact absurd hg.symm hdepth

theorem Faults.showing {fault : String → Fault} (kind : FaultKind)
    (hkind : ∀ s, (fault s).kind = kind) (hdepth : kind ≠ .depth)
    {r r' : Except DigitLimit String} (h : L.Texts r r') :
    L.Faults (.showing fault r) (.showing fault r') := by
  cases h with
  | @ok s t hs =>
    refine .of_kind kind (hkind s) (hkind t) hdepth fun same => ?_
    show (fault s).message = (fault t).message
    rw [hs same]
  | error => exact .refl L _

end Likeness

end MiniLisp
