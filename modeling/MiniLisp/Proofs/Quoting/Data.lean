import MiniLisp.Datum
import MiniLisp.Proofs.Numerals.Decimal
import MiniLisp.Proofs.Quoting.Spelling
import MiniLisp.Proofs.Reading.Brackets
import MiniLisp.Value.Equality

/-!
Data, their texts and their values. An S-expression spells a datum, and the datum is printed as the
S-expression with its numerals in canonical form (`Datum.spelling_ofSExpr`), which spells the same datum
(`Datum.ofSExpr_canonical`). The values of data are equal exactly if the data are (`Datum.isEqual_place`).
-/

namespace MiniLisp

/-! ## Atoms of S-expressions -/

namespace SExpr

mutual

/-- The S-expression with each of its atoms changed. -/
def mapAtoms (f : String → String) : SExpr → SExpr
  | .atom text => .atom (f text)
  | .list items => .list (mapAtomsOf f items)

/-- Several S-expressions with each of their atoms changed. -/
def mapAtomsOf (f : String → String) : List SExpr → List SExpr
  | [] => []
  | item :: items => item.mapAtoms f :: mapAtomsOf f items

end

/-- No atom of the S-expression is a numeral of more digits than are read. -/
def NumeralsWithinLimit (node : SExpr) : Prop :=
  ∀ text ∈ node.atoms, Numeral.WithinLimit text

instance (node : SExpr) : Decidable node.NumeralsWithinLimit :=
  inferInstanceAs (Decidable (∀ text ∈ node.atoms, Numeral.WithinLimit text))

end SExpr

/-! ## Data that are spelled -/

namespace Datum

/-- The datum that an atom spells, however many digits it has. -/
def ofText (text : String) : Datum :=
  match Numeral.integer? text with
  | some n => .int n
  | none =>
    if text = trueWord then .bool true
    else if text = falseWord then .bool false
    else .symbol text

mutual

/-- The datum that an S-expression spells, however many digits its atoms have. -/
def ofSExpr : SExpr → Datum
  | .atom text => ofText text
  | .list items => .list (ofSExprs items)

/-- The data that several S-expressions spell. -/
def ofSExprs : List SExpr → List Datum
  | [] => []
  | item :: items => ofSExpr item :: ofSExprs items

end

mutual

/-- The S-expression that a datum is printed as. -/
def spelling : Datum → SExpr
  | .int n => .atom (Numeral.text n)
  | .bool b => .atom (if b then trueWord else falseWord)
  | .symbol name => .atom name
  | .list items => .list (spellings items)

/-- The S-expressions that several data are printed as. -/
def spellings : List Datum → List SExpr
  | [] => []
  | item :: items => item.spelling :: spellings items

end

theorem spellings_eq_map (items : List Datum) : spellings items = items.map spelling := by
  induction items with
  | nil => rfl
  | cons item items ih => rw [spellings, ih, List.map_cons]

theorem ofAtom_of_withinLimit {text : String} (h : Numeral.WithinLimit text) :
    ofAtom text = .ok (ofText text) := by
  rw [ofAtom, ofText, Numeral.read_of_withinLimit h]
  cases Numeral.integer? text with
  | some n => rfl
  | none =>
    show (if text = trueWord then _ else _) = _
    rw [apply_ite Except.ok, apply_ite Except.ok]

theorem spelling_ofText (text : String) : (ofText text).spelling = .atom (Numeral.canonical text) := by
  rw [ofText]
  cases h : Numeral.integer? text with
  | some n => rw [Numeral.canonical_of_integer? h]; rfl
  | none =>
    rw [Numeral.canonical_of_not_integer h]
    dsimp only
    split
    · next htrue => rw [htrue]; rfl
    · split
      · next hfalse => rw [hfalse]; rfl
      · rfl

/-- An atom in canonical form spells the same datum. -/
theorem ofText_canonical (text : String) : ofText (Numeral.canonical text) = ofText text := by
  cases h : Numeral.integer? text with
  | some n => rw [ofText, ofText, Numeral.integer?_canonical, h]
  | none => rw [Numeral.canonical_of_not_integer h]

mutual

/-- What an S-expression spells is printed as it is, but for the canonical form of its numerals. -/
theorem spelling_ofSExpr : ∀ node : SExpr, (ofSExpr node).spelling = node.mapAtoms Numeral.canonical
  | .atom text => by rw [ofSExpr, SExpr.mapAtoms, spelling_ofText]
  | .list items => by rw [ofSExpr, spelling, SExpr.mapAtoms, spellings_ofSExprs items]

theorem spellings_ofSExprs : ∀ items : List SExpr,
    spellings (ofSExprs items) = SExpr.mapAtomsOf Numeral.canonical items
  | [] => rfl
  | item :: items => by
    rw [ofSExprs, spellings, SExpr.mapAtomsOf, spelling_ofSExpr item, spellings_ofSExprs items]

end

mutual

/-- The canonical form of an S-expression spells the same datum. -/
theorem ofSExpr_canonical : ∀ node : SExpr, ofSExpr (node.mapAtoms Numeral.canonical) = ofSExpr node
  | .atom text => by rw [SExpr.mapAtoms, ofSExpr, ofSExpr, ofText_canonical]
  | .list items => by rw [SExpr.mapAtoms, ofSExpr, ofSExpr, ofSExprs_canonical items]

theorem ofSExprs_canonical : ∀ items : List SExpr,
    ofSExprs (SExpr.mapAtomsOf Numeral.canonical items) = ofSExprs items
  | [] => rfl
  | item :: items => by
    rw [SExpr.mapAtomsOf, ofSExprs, ofSExprs, ofSExpr_canonical item, ofSExprs_canonical items]

end

/-- Two S-expressions spell one datum exactly if they are the same in canonical form. -/
theorem ofSExpr_eq_iff {node node' : SExpr} :
    ofSExpr node = ofSExpr node' ↔
      node.mapAtoms Numeral.canonical = node'.mapAtoms Numeral.canonical := by
  constructor
  · intro h
    rw [← spelling_ofSExpr, ← spelling_ofSExpr, h]
  · intro h
    rw [← ofSExpr_canonical node, ← ofSExpr_canonical node', h]

/-! ## Values of data -/

mutual

/-- Whether all integers of a datum can be written. -/
def isWritable : Datum → Bool
  | .int n => n.natAbs < Numeral.bound
  | .bool _ => true
  | .symbol _ => true
  | .list items => areWritable items

/-- Whether all integers of several data can be written. -/
def areWritable : List Datum → Bool
  | [] => true
  | item :: items => item.isWritable && areWritable items

end

theorem areWritable_eq_true_iff {items : List Datum} :
    areWritable items = true ↔ ∀ item ∈ items, item.isWritable = true := by
  induction items with
  | nil => simp [areWritable]
  | cons item items ih => simp [areWritable, ih]

theorem isWritable_ofText {text : String} (h : Numeral.WithinLimit text) :
    (ofText text).isWritable = true := by
  rw [ofText]
  cases hn : Numeral.integer? text with
  | some n =>
    have hbound := Numeral.natAbs_lt_bound h hn
    dsimp only
    rw [isWritable, decide_eq_true_eq]
    exact hbound
  | none =>
    dsimp only
    split
    · rfl
    · split <;> rfl

mutual

theorem isWritable_place : ∀ (d : Datum) (next : Nat), (d.place next).1.isWritable = d.isWritable
  | .int _, _ | .bool _, _ | .symbol _, _ => rfl
  | .list items, next => by rw [place, isWritable, isWritable_placeItems items next]

theorem isWritable_placeItems : ∀ (items : List Datum) (next : Nat),
    (placeItems items next).1.isWritable = areWritable items
  | [], _ => rfl
  | item :: items, next => by
    rw [placeItems, Value.isWritable, areWritable, isWritable_place item next,
      isWritable_placeItems items _]

end

mutual

theorem spelling_place : ∀ (d : Datum) (next : Nat), (d.place next).1.spelling = d.spelling
  | .int _, _ | .bool _, _ | .symbol _, _ => rfl
  | .list items, next => by rw [place, spelling, spelling_placeItems items next]

theorem spelling_placeItems : ∀ (items : List Datum) (next : Nat),
    (placeItems items next).1.spelling = .list (spellings items)
  | [], _ => rfl
  | item :: items, next => by
    rw [placeItems, Value.spelling, spellings, spelling_place item next,
      spelling_placeItems items _, SExpr.afterFirst]

end

/-- The value of a datum has the text of the S-expression that the datum is printed as. -/
theorem source_place {d : Datum} (h : d.isWritable = true) (next : Nat) :
    (d.place next).1.source = .ok d.spelling.source := by
  rw [← isWritable_place d next] at h
  rw [(Value.source_eq_spelling h).1, spelling_place]

mutual

/-- The values of two data are equal exactly if the data are, in whatever cells they are made. -/
theorem isEqual_place : ∀ (d d' : Datum) (m n : Nat),
    (d.place m).1.isEqual (d'.place n).1 = true ↔ d = d'
  | .int _, d', m, n | .bool _, d', m, n | .symbol _, d', m, n => by
    cases d' with
    | list items' => cases items' <;> simp [place, placeItems, Value.isEqual]
    | _ => simp [place, Value.isEqual]
  | .list items, .list items', m, n => by
    rw [place, place, isEqual_placeItems items items' m n, list.injEq]
  | .list items, .int _, m, n | .list items, .bool _, m, n | .list items, .symbol _, m, n => by
    cases items <;> simp [place, placeItems, Value.isEqual]

theorem isEqual_placeItems : ∀ (items items' : List Datum) (m n : Nat),
    (placeItems items m).1.isEqual (placeItems items' n).1 = true ↔ items = items'
  | [], [], _, _ => iff_of_true rfl rfl
  | [], _ :: _, _, _ | _ :: _, [], _, _ => by simp [placeItems, Value.isEqual]
  | item :: items, item' :: items', m, n => by
    rw [placeItems, placeItems, Value.isEqual, Bool.and_eq_true, isEqual_place item item' m n,
      isEqual_placeItems items items' _ _, List.cons.injEq]

end

end Datum

end MiniLisp
