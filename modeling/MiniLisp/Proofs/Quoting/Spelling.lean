import MiniLisp.SExpr.Printer
import MiniLisp.Value.Printer

/-!
The S-expression that the text of a value spells. In a list that does not end in the empty list, the dot
before the end is an element as any other (`Value.source_eq_spelling`).
-/

namespace MiniLisp

/-- The elements of a list after the first, if its tail is spelled so: those of a list, or a dot and an
atom. -/
def SExpr.afterFirst : SExpr → List SExpr
  | .atom text => [.atom ".", .atom text]
  | .list items => items

namespace Value

/-- The S-expression that the text of a value spells. -/
def spelling : Value → SExpr
  | .int n => .atom (Numeral.text n)
  | .bool b => .atom (if b then trueWord else falseWord)
  | .symbol name => .atom name
  | .text s => .atom s
  | .nil => .list []
  | .pair _ head tail => .list (head.spelling :: tail.spelling.afterFirst)
  | .primitive op => .atom op.source
  | .closure _ params _ _ => .atom (closureSource params)

/-- The text of a value is the source of its spelling, both for the value alone and for the tail of a list
that it is. -/
theorem source_eq_spelling {v : Value} (h : v.isWritable = true) :
    v.source = .ok v.spelling.source ∧
      v.tailSource = .ok (" ".intercalate ("" :: v.spelling.afterFirst.map SExpr.source)) := by
  have hdotted (text : String) : " ".intercalate ["", ".", text] = " . " ++ text := by
    have hdot : " " ++ ("." ++ " ") = " . " := by decide
    rw [String.intercalate_cons_cons, String.intercalate_cons_cons, String.intercalate_singleton,
      String.empty_append, ← String.append_assoc, hdot]
  induction v with
  | int n =>
    rw [isWritable, decide_eq_true_eq] at h
    rw [source, tailSource, Numeral.write, if_pos h, spelling, SExpr.source_atom, SExpr.afterFirst,
      List.map_cons, List.map_cons, List.map_nil, SExpr.source_atom, SExpr.source_atom, hdotted]
    exact ⟨rfl, rfl⟩
  | pair cell head tail ihhead ihtail =>
    rw [isWritable, Bool.and_eq_true] at h
    obtain ⟨hhead, -⟩ := ihhead h.1
    obtain ⟨-, htail⟩ := ihtail h.2
    -- The further parts follow the first with a space before each of them.
    have hparts (parts : List String) : " ".intercalate (head.spelling.source :: parts) =
        head.spelling.source ++ " ".intercalate ("" :: parts) := by
      rw [← String.intercalate_cons_append, String.append_empty]
    rw [source, tailSource, hhead, htail, spelling, SExpr.source_list, SExpr.afterFirst,
      List.map_cons, String.intercalate_cons_cons, hparts]
    exact ⟨congrArg Except.ok (by simp only [String.append_assoc]),
      congrArg Except.ok (by simp only [String.append_assoc, String.empty_append])⟩
  | nil => simp [source, tailSource, spelling, SExpr.afterFirst]
  | _ => simp [source, tailSource, spelling, SExpr.afterFirst, hdotted]

/-- A value with an integer that cannot be written has no text. -/
theorem source_of_not_isWritable {v : Value} (h : v.isWritable = false) :
    v.source = .error .writing ∧ v.tailSource = .error .writing := by
  induction v with
  | int n =>
    rw [isWritable, decide_eq_false_iff_not] at h
    rw [source, tailSource, Numeral.write, if_neg h]
    exact ⟨rfl, rfl⟩
  | pair cell head tail ihhead ihtail =>
    rw [source, tailSource]
    cases hhead : head.isWritable with
    | false =>
      rw [(ihhead hhead).1]
      exact ⟨rfl, rfl⟩
    | true =>
      rw [isWritable, hhead, Bool.true_and] at h
      rw [(source_eq_spelling hhead).1, (ihtail h).2]
      exact ⟨rfl, rfl⟩
  | _ => cases h

/-- A value has a text exactly if its integers can be written, and else fails on one. -/
theorem source_cases (v : Value) :
    (v.isWritable = true ∧ ∃ s, v.source = .ok s) ∨
      (v.isWritable = false ∧ v.source = .error .writing) := by
  cases h : v.isWritable with
  | true => exact .inl ⟨rfl, _, (source_eq_spelling h).1⟩
  | false => exact .inr ⟨rfl, (source_of_not_isWritable h).1⟩

theorem isOk_source (v : Value) : v.source.isOk = v.isWritable := by
  rcases v.source_cases with ⟨hwritable, s, hs⟩ | ⟨hwritable, hs⟩
  · rw [hs, hwritable]
    rfl
  · rw [hs, hwritable]
    rfl

theorem isOk_debugForm (v : Value) : v.debugForm.isOk = v.isWritable := by
  rcases v.debugForm_cases with ⟨hwritable, s, hs⟩ | ⟨hwritable, hs⟩
  · rw [hs, hwritable]
    rfl
  · rw [hs, hwritable]
    rfl

end Value

end MiniLisp
