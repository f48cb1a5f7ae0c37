import MiniLisp.SExpr.Basic
import MiniLisp.Text.Quoted
import MiniLisp.Text.Sequence

/-!
The two texts of an S-expression: its source, with single spaces between the elements of a list,
and its debugging form, with quoted atoms and square brackets.
-/

namespace MiniLisp.SExpr

mutual

/-- The source text of an S-expression. -/
def source : SExpr → String
  | .atom text => text
  | .list items => "(" ++ " ".intercalate (sources items) ++ ")"

/-- The source texts of several S-expressions. -/
def sources : List SExpr → List String
  | [] => []
  | item :: items => item.source :: sources items

end

@[simp] theorem source_atom (text : String) : (SExpr.atom text).source = text := by
  rw [source]

@[simp] theorem sources_eq_map (items : List SExpr) : sources items = items.map source := by
  induction items with
  | nil => rw [sources, List.map_nil]
  | cons item items ih => rw [sources, ih, List.map_cons]

@[simp] theorem source_list (items : List SExpr) :
    (SExpr.list items).source = "(" ++ " ".intercalate (items.map source) ++ ")" := by
  rw [source, sources_eq_map]

mutual

/-- The debugging form of an S-expression. -/
def debugForm : SExpr → String
  | .atom text => Text.quoted text
  | .list items => Text.listed (debugForms items)

/-- The debugging forms of several S-expressions. -/
def debugForms : List SExpr → List String
  | [] => []
  | item :: items => item.debugForm :: debugForms items

end

@[simp] theorem debugForms_eq_map (items : List SExpr) : debugForms items = items.map debugForm := by
  induction items with
  | nil => rw [debugForms, List.map_nil]
  | cons item items ih => rw [debugForms, ih, List.map_cons]

mutual

/-- How many frames deep the debugging form is written: one for each list around an atom. -/
def debugFrames : SExpr → Nat
  | .atom _ => 1
  | .list items => 1 + debugFramesOf items

/-- The most frames that one of the S-expressions takes. -/
def debugFramesOf : List SExpr → Nat
  | [] => 0
  | item :: items => max item.debugFrames (debugFramesOf items)

end

end MiniLisp.SExpr
