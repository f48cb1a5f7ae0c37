import MiniLisp.Expr.Printer
import MiniLisp.Keyword
import MiniLisp.Numeral
import MiniLisp.Value.Basic

/-!
The two texts of a value: the one that a program would write, and the debugging form. Either fails
only on an integer with too many digits; what a closure captured is in neither.
-/

namespace MiniLisp.Value

/-- The text of a closure, which shows its parameters only. -/
def closureSource (params : List String) : String :=
  "#<closure (" ++ " ".intercalate params ++ ")>"

mutual

/-- The text of a value as a program would write it. -/
def source : Value → Except DigitLimit String
  | .int n => Numeral.write n
  | .bool b => .ok (if b then trueWord else falseWord)
  | .symbol name => .ok name
  | .text s => .ok s
  | .nil => .ok "()"
  | .pair _ head tail => do
    let first ← head.source
    let rest ← tail.tailSource
    .ok ("(" ++ first ++ rest ++ ")")
  | .primitive op => .ok op.source
  | .closure _ params _ _ => .ok (closureSource params)

/-- The text between the first element of a list and its closing bracket: further elements after a
space each, and after a dot what the list ends in, unless that is the empty list. -/
def tailSource : Value → Except DigitLimit String
  | .nil => .ok ""
  | .pair _ head tail => do
    let first ← head.source
    let rest ← tail.tailSource
    .ok (" " ++ first ++ rest)
  | .int n => (" . " ++ ·) <$> Numeral.write n
  | .bool b => .ok (" . " ++ if b then trueWord else falseWord)
  | .symbol name => .ok (" . " ++ name)
  | .text s => .ok (" . " ++ s)
  | .primitive op => .ok (" . " ++ op.source)
  | .closure _ params _ _ => .ok (" . " ++ closureSource params)

end

/-- The debugging form of a value. -/
def debugForm : Value → Except DigitLimit String
  | .int n => Numeral.write n
  | .bool b => .ok (if b then "True" else "False")
  | .symbol name => .ok ("Symbol(" ++ Text.quoted name ++ ")")
  | .text s => .ok (Text.quoted s)
  | .nil => .ok "()"
  | .pair _ head tail => do
    let first ← head.debugForm
    let rest ← tail.debugForm
    .ok (Text.record "Pair" [("head", first), ("tail", rest)])
  | .primitive op => .ok op.debugForm
  | .closure _ params body _ =>
    .ok ("Closure(" ++ Text.tupled (params.map Text.quoted) ++ ", " ++
      Text.quoted body.source ++ ")")

/-! ## Integers with too many digits -/

/-- Whether all integers that the texts of a value show can be written. -/
def isWritable : Value → Bool
  | .int n => n.natAbs < Numeral.bound
  | .pair _ head tail => head.isWritable && tail.isWritable
  | _ => true

/-- A value has a debugging form exactly if its integers can be written, and else fails on one. -/
theorem debugForm_cases (v : Value) :
    (v.isWritable = true ∧ ∃ s, v.debugForm = .ok s) ∨
      (v.isWritable = false ∧ v.debugForm = .error .writing) := by
  induction v with
  | int n =>
    by_cases h : n.natAbs < Numeral.bound <;> simp [isWritable, debugForm, Numeral.write, h]
  | pair cell head tail ihh iht =>
    rcases ihh with ⟨wh, s, hs⟩ | ⟨wh, hs⟩
    · rcases iht with ⟨wt, t, ht⟩ | ⟨wt, ht⟩
      · exact .inl ⟨by simp [isWritable, wh, wt], _, by rw [debugForm, hs, ht]; rfl⟩
      · exact .inr ⟨by simp [isWritable, wt], by rw [debugForm, hs, ht]; rfl⟩
    · exact .inr ⟨by simp [isWritable, wh], by rw [debugForm, hs]; rfl⟩
  | _ => exact .inl ⟨rfl, _, by rw [debugForm]⟩

/-! ## Frames

Writing a text takes frames of the stack. The parts of a pair are written in order, so that nothing
after an integer with too many digits is reached.
-/

/-- How many frames deep the debugging form is written: three for each step to a head or a tail. -/
def debugFrames : Value → Nat
  | .pair _ head tail => 3 + max head.debugFrames (if head.isWritable then tail.debugFrames else 0)
  | .closure _ _ body _ => 3 + body.sourceFrames
  | _ => 1

mutual

/-- How many frames deep the text of a value is written: four for each step to an element of a
list. -/
def sourceFrames : Value → Nat
  | .pair _ head tail =>
    4 + max head.sourceFrames (if head.isWritable then tail.tailSourceFrames else 0)
  | _ => 1

/-- The most frames that one of the further elements of a list takes. -/
def tailSourceFrames : Value → Nat
  | .pair _ head tail =>
    max head.sourceFrames (if head.isWritable then tail.tailSourceFrames else 0)
  | _ => 1

end

end MiniLisp.Value
