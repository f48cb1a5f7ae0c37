/-!
Cutting a text into pieces while it is read from its end: each character either grows the piece in
front, or closes it.
-/

namespace MiniLisp.Text

/-- A text cut so far: the piece that may still grow to the left, and the finished ones after it. -/
structure Pieces where
  front : List Char
  rest : List (List Char)

namespace Pieces

/-- Nothing read yet. -/
def empty : Pieces :=
  ⟨[], []⟩

/-- All pieces in order; a front piece without characters is no piece. -/
def toList : Pieces → List (List Char)
  | ⟨[], rest⟩ => rest
  | ⟨c :: cs, rest⟩ => (c :: cs) :: rest

/-- The character belongs to the piece in front. -/
def grow (c : Char) (p : Pieces) : Pieces :=
  ⟨c :: p.front, p.rest⟩

/-- The character separates pieces and belongs to none. -/
def cut (p : Pieces) : Pieces :=
  ⟨[], p.toList⟩

/-- The character is a piece of its own. -/
def single (c : Char) (p : Pieces) : Pieces :=
  ⟨[], [c] :: p.toList⟩

@[simp] theorem toList_empty : empty.toList = [] := rfl

@[simp] theorem toList_cut (p : Pieces) : p.cut.toList = p.toList := rfl

@[simp] theorem toList_single (c : Char) (p : Pieces) :
    (p.single c).toList = [c] :: p.toList := rfl

@[simp] theorem toList_grow (c : Char) (p : Pieces) :
    (p.grow c).toList = (c :: p.front) :: p.rest := rfl

/-- Characters that belong to the piece in front are put before it. -/
theorem foldr_grow {step : Char → Pieces → Pieces} {cs : List Char}
    (h : ∀ c ∈ cs, ∀ p, step c p = p.grow c) (p : Pieces) :
    cs.foldr step p = ⟨cs ++ p.front, p.rest⟩ := by
  induction cs with
  | nil => rfl
  | cons c cs ih =>
    obtain ⟨hc, hcs⟩ := List.forall_mem_cons.1 h
    rw [List.foldr_cons, ih hcs, hc]
    rfl

/-- A piece is put in front where the piece there has no characters yet. -/
theorem toList_piece {piece : List Char} (hne : piece ≠ []) {p : Pieces} (hfront : p.front = []) :
    (mk piece p.rest).toList = piece :: p.toList := by
  obtain ⟨front, rest⟩ := p
  cases hfront
  cases piece with
  | nil => exact absurd rfl hne
  | cons c cs => rfl

end Pieces

end MiniLisp.Text
