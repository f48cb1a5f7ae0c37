import MiniLisp.Expr.Basic
import MiniLisp.Text.Quoted
import MiniLisp.Text.Sequence

/-!
The two texts of an expression: the source that builds it, and its debugging form, which names
every node with its fields.
-/

namespace MiniLisp.Expr

mutual

/-- The source text of an expression. -/
def source : Expr → String
  | .literal text => text
  | .identifier name => name
  | .quote datum => "(quote " ++ datum.source ++ ")"
  | .branch question answer => "(" ++ question.source ++ " " ++ answer.source ++ ")"
  | .cond branches => "(" ++ " ".intercalate ("cond" :: branchSources branches) ++ ")"
  | .lambda params body => "(lambda (" ++ " ".intercalate params ++ ") " ++ body.source ++ ")"
  | .app func args => "(" ++ " ".intercalate (func.source :: sources args) ++ ")"
  | .empty => "()"

/-- The source texts of the branches of a conditional. -/
def branchSources : List (Expr × Expr) → List String
  | [] => []
  | (question, answer) :: branches =>
    ("(" ++ question.source ++ " " ++ answer.source ++ ")") :: branchSources branches

/-- The source texts of several expressions. -/
def sources : List Expr → List String
  | [] => []
  | e :: es => e.source :: sources es

end

@[simp] theorem sources_eq_map (es : List Expr) : sources es = es.map source := by
  induction es with
  | nil => rw [sources, List.map_nil]
  | cons e es ih => rw [sources, ih, List.map_cons]

@[simp] theorem branchSources_eq_map (branches : List (Expr × Expr)) :
    branchSources branches = branches.map fun b => "(" ++ b.1.source ++ " " ++ b.2.source ++ ")" := by
  induction branches with
  | nil => rw [branchSources, List.map_nil]
  | cons b branches ih => rw [branchSources, ih, List.map_cons]

mutual

/-- The debugging form of an expression. -/
def debugForm : Expr → String
  | .literal text => Text.record "Literal" [("text", Text.quoted text)]
  | .identifier name => Text.record "Identifier" [("name", Text.quoted name)]
  | .quote datum => Text.record "Quote" [("datum", datum.debugForm)]
  | .branch question answer =>
    Text.record "Branch" [("question", question.debugForm), ("answer", answer.debugForm)]
  | .cond branches =>
    Text.record "Conditional" [("branches", Text.tupled (branchDebugForms branches))]
  | .lambda params body =>
    Text.record "Lambda"
      [("params", Text.tupled (params.map Text.quoted)), ("body", body.debugForm)]
  | .app func args =>
    Text.record "Application"
      [("func", func.debugForm), ("args", Text.tupled (debugForms args))]
  | .empty => Text.record "EmptyList" []

/-- The debugging forms of the branches of a conditional. -/
def branchDebugForms : List (Expr × Expr) → List String
  | [] => []
  | (question, answer) :: branches =>
    Text.record "Branch" [("question", question.debugForm), ("answer", answer.debugForm)] ::
      branchDebugForms branches

/-- The debugging forms of several expressions. -/
def debugForms : List Expr → List String
  | [] => []
  | e :: es => e.debugForm :: debugForms es

end

/-! ## Frames

Writing a text takes frames of the stack: three for each step from a node into one of its parts, and
one more into a part that stands in a sequence.
-/

mutual

/-- How many frames deep the source text is written. -/
def sourceFrames : Expr → Nat
  | .literal _ | .identifier _ | .empty => 1
  | .quote datum => 3 + datum.sourceFrames
  | .branch question answer => 3 + max question.sourceFrames answer.sourceFrames
  | .cond branches => 4 + branchSourceFrames branches
  | .lambda _ body => 3 + body.sourceFrames
  | .app func args => 4 + max func.sourceFrames (sourceFramesOf args)

/-- The most frames that the source text of one of the branches takes. -/
def branchSourceFrames : List (Expr × Expr) → Nat
  | [] => 0
  | (question, answer) :: branches =>
    max (3 + max question.sourceFrames answer.sourceFrames) (branchSourceFrames branches)

/-- The most frames that the source text of one of the expressions takes. -/
def sourceFramesOf : List Expr → Nat
  | [] => 0
  | e :: es => max e.sourceFrames (sourceFramesOf es)

end

mutual

/-- How many frames deep the debugging form is written. -/
def debugFrames : Expr → Nat
  | .literal _ | .identifier _ | .empty => 1
  | .quote datum => 3 + datum.debugFrames
  | .branch question answer => 3 + max question.debugFrames answer.debugFrames
  | .cond branches => 4 + branchDebugFrames branches
  | .lambda _ body => 3 + body.debugFrames
  | .app func args => 3 + max func.debugFrames (1 + debugFramesOf args)

/-- The most frames that the debugging form of one of the branches takes. -/
def branchDebugFrames : List (Expr × Expr) → Nat
  | [] => 0
  | (question, answer) :: branches =>
    max (3 + max question.debugFrames answer.debugFrames) (branchDebugFrames branches)

/-- The most frames that the debugging form of one of the expressions takes. -/
def debugFramesOf : List Expr → Nat
  | [] => 0
  | e :: es => max e.debugFrames (debugFramesOf es)

end

end MiniLisp.Expr
