import Mathlib.Data.List.Basic
import MiniLisp.Token

/-!
Which texts write which tokens: each bracket by itself and each atom in full, with any white space around
them, as long as no atom runs on into the next. Cutting a text into tokens finds the only ones that it
writes (`Token.ofText_eq_iff`).
-/

namespace MiniLisp.Token

/-- The text of an atom: some characters, none of them a bracket or white space. -/
structure IsAtom (text : Token) : Prop where
  ne_empty : text ≠ ""
  isAtomChar : ∀ c ∈ text.toList, isAtomChar c = true

instance (text : Token) : Decidable (IsAtom text) :=
  decidable_of_iff (text ≠ "" ∧ text.toList.all isAtomChar = true)
    ⟨fun h => ⟨h.1, List.all_eq_true.1 h.2⟩, fun h => ⟨h.ne_empty, List.all_eq_true.2 h.isAtomChar⟩⟩

/-- A bracket, or the text of an atom. -/
def IsToken (token : Token) : Prop :=
  token = opening ∨ token = closing ∨ IsAtom token

instance (token : Token) : Decidable (IsToken token) :=
  inferInstanceAs (Decidable (_ ∨ _))

/-- White space, or nothing. -/
def IsGap (cs : List Char) : Prop :=
  ∀ c ∈ cs, isSpace c = true

instance (cs : List Char) : Decidable (IsGap cs) :=
  decidable_of_iff (cs.all isSpace = true) List.all_eq_true

/-- No atom goes on with these characters. -/
def EndsAtom (cs : List Char) : Prop :=
  ∀ c ∈ cs.head?, isAtomChar c = false

/-- The characters write the tokens. -/
inductive Written : List Char → List Token → Prop
  | nil : Written [] []
  | space {c : Char} {cs : List Char} {tokens : List Token} (hc : isSpace c = true)
      (h : Written cs tokens) : Written (c :: cs) tokens
  | bracket {c : Char} {cs : List Char} {tokens : List Token} (hc : isBracket c = true)
      (h : Written cs tokens) : Written (c :: cs) (String.ofList [c] :: tokens)
  | atom {text : Token} {cs : List Char} {tokens : List Token} (hatom : IsAtom text)
      (hend : EndsAtom cs) (h : Written cs tokens) : Written (text.toList ++ cs) (text :: tokens)

/-! ## Characters -/

theorem isAtomChar_eq_false_iff {c : Char} :
    isAtomChar c = false ↔ isBracket c = true ∨ isSpace c = true := by
  rw [isAtomChar]
  cases isBracket c <;> simp

theorem endsAtom_nil : EndsAtom [] := by
  intro c hc
  cases hc

theorem endsAtom_cons {c : Char} {cs : List Char} : EndsAtom (c :: cs) ↔ isAtomChar c = false := by
  simp [EndsAtom]

theorem endsAtom_of_head? {c : Char} {cs : List Char} (h : cs.head? = some c)
    (hc : isAtomChar c = false) : EndsAtom cs := by
  intro d hd
  rw [h] at hd
  rwa [← Option.some.inj hd]

theorem isBracket_of_isSpace {c : Char} (h : isSpace c = true) : isBracket c = false := by
  simp only [isSpace, Bool.or_eq_true, beq_iff_eq] at h
  rcases h with ((rfl | rfl) | rfl) | rfl <;> decide

theorem isToken_bracket {c : Char} (h : isBracket c = true) : IsToken (String.ofList [c]) := by
  rw [isBracket, Bool.or_eq_true, beq_iff_eq, beq_iff_eq] at h
  rcases h with rfl | rfl
  · exact .inl rfl
  · exact .inr (.inl rfl)

theorem IsAtom.toList_ne_nil {text : Token} (h : IsAtom text) : text.toList ≠ [] :=
  fun hnil => h.ne_empty (String.toList_eq_nil_iff.1 hnil)

theorem Written.gap {gap cs : List Char} {tokens : List Token} (hgap : IsGap gap)
    (h : Written cs tokens) : Written (gap ++ cs) tokens := by
  induction gap with
  | nil => exact h
  | cons c gap ih =>
    obtain ⟨hc, hgap⟩ := List.forall_mem_cons.1 hgap
    exact .space hc (ih hgap)

/-- Texts are written one after another, unless an atom runs on from one to the next. -/
theorem Written.append {cs ds : List Char} {tokens others : List Token} (h : Written cs tokens)
    (hothers : Written ds others) (hend : ∀ c ∈ cs.getLast?, isAtomChar c = true → EndsAtom ds) :
    Written (cs ++ ds) (tokens ++ others) := by
  induction h with
  | nil => exact hothers
  | space hc _ ih => exact .space hc (ih fun d hd => hend d (List.mem_getLast?_cons hd))
  | bracket hc _ ih => exact .bracket hc (ih fun d hd => hend d (List.mem_getLast?_cons hd))
  | @atom text cs tokens hatom hcs _ ih =>
    have hboth : EndsAtom (cs ++ ds) := by
      cases cs with
      | nil =>
        have hlast := List.getLast?_eq_some_getLast hatom.toList_ne_nil
        refine hend _ ?_ (hatom.isAtomChar _ (List.getLast_mem hatom.toList_ne_nil))
        rw [List.append_nil, hlast]
        exact rfl
      | cons c cs => exact hcs
    rw [List.append_assoc]
    exact .atom hatom hboth (ih fun d hd => hend d (List.mem_getLast?_append_of_mem_getLast? hd))

/-! ## Cutting -/

theorem scanStep_bracket {c : Char} (h : isBracket c = true) (p : Text.Pieces) :
    scanStep c p = p.single c := by
  rw [scanStep, if_pos h]

theorem scanStep_space {c : Char} (h : isSpace c = true) (p : Text.Pieces) :
    scanStep c p = p.cut := by
  rw [scanStep, isBracket_of_isSpace h, if_neg (by decide), if_pos h]

theorem scanStep_atomChar {c : Char} (h : isAtomChar c = true) (p : Text.Pieces) :
    scanStep c p = p.grow c := by
  rw [isAtomChar, Bool.and_eq_true, Bool.not_eq_true', Bool.not_eq_true'] at h
  rw [scanStep, h.1, if_neg (by decide), h.2, if_neg (by decide)]

theorem scan_front_of_endsAtom {cs : List Char} (h : EndsAtom cs) : (scan cs).front = [] := by
  cases cs with
  | nil => rfl
  | cons c cs =>
    rw [scan_cons]
    rcases isAtomChar_eq_false_iff.1 (endsAtom_cons.1 h) with hbracket | hspace
    · rw [scanStep_bracket hbracket]
      rfl
    · rw [scanStep_space hspace]
      rfl

/-- Cutting finds the tokens that the characters write. -/
theorem Written.scan {cs : List Char} {tokens : List Token} (h : Written cs tokens) :
    (Token.scan cs).toList.map String.ofList = tokens := by
  induction h with
  | nil => rfl
  | space hc _ ih => rw [scan_cons, scanStep_space hc, Text.Pieces.toList_cut, ih]
  | bracket hc _ ih =>
    rw [scan_cons, scanStep_bracket hc, Text.Pieces.toList_single, List.map_cons, ih]
  | @atom text cs tokens hatom hend _ ih =>
    -- The atom ends where nothing has been put in front of it yet.
    have hfront := scan_front_of_endsAtom hend
    have hgrow := Text.Pieces.foldr_grow (fun c hc => scanStep_atomChar (hatom.isAtomChar c hc))
      (Token.scan cs)
    rw [scan_append, hgrow, hfront, List.append_nil,
      Text.Pieces.toList_piece hatom.toList_ne_nil hfront, List.map_cons, ih, String.ofList_toList]

/-- The characters start with those of the front piece, which make part of an atom, and what follows
writes the other pieces. -/
structure CutAt (cs : List Char) (p : Text.Pieces) (tail : List Char) : Prop where
  eq_append : cs = p.front ++ tail
  isAtomChar : ∀ c ∈ p.front, isAtomChar c = true
  endsAtom : EndsAtom tail
  written : Written tail (p.rest.map String.ofList)

theorem CutAt.written_toList {cs tail : List Char} {p : Text.Pieces} (h : CutAt cs p tail) :
    Written cs (p.toList.map String.ofList) := by
  obtain ⟨front, rest⟩ := p
  rw [h.eq_append]
  cases front with
  | nil => exact h.written
  | cons c front =>
    have hatom : IsAtom (String.ofList (c :: front)) :=
      ⟨by simp, by rw [String.toList_ofList]; exact h.isAtomChar⟩
    have hwritten := Written.atom hatom h.endsAtom h.written
    rw [String.toList_ofList] at hwritten
    exact hwritten

theorem cutAt_scan (cs : List Char) : ∃ tail, CutAt cs (scan cs) tail := by
  -- Characters are added in front, so the front piece is the atom that may still grow.
  induction cs with
  | nil => exact ⟨[], rfl, by simp [Text.Pieces.empty], endsAtom_nil, .nil⟩
  | cons c cs ih =>
    obtain ⟨tail, htail⟩ := ih
    rw [scan_cons]
    by_cases hatom : isAtomChar c = true
    · rw [scanStep_atomChar hatom]
      exact ⟨tail, congrArg (c :: ·) htail.eq_append,
        List.forall_mem_cons.2 ⟨hatom, htail.isAtomChar⟩, htail.endsAtom, htail.written⟩
    · rw [Bool.not_eq_true] at hatom
      have hend : EndsAtom (c :: cs) := endsAtom_cons.2 hatom
      rcases isAtomChar_eq_false_iff.1 hatom with hbracket | hspace
      · rw [scanStep_bracket hbracket]
        exact ⟨c :: cs, rfl, by simp [Text.Pieces.single], hend,
          .bracket hbracket htail.written_toList⟩
      · rw [scanStep_space hspace]
        exact ⟨c :: cs, rfl, by simp [Text.Pieces.cut], hend, .space hspace htail.written_toList⟩

/-- The tokens of a text are the only ones that it writes. -/
theorem ofText_eq_iff {text : String} {tokens : List Token} :
    ofText text = tokens ↔ Written text.toList tokens := by
  constructor
  · rintro rfl
    obtain ⟨tail, htail⟩ := cutAt_scan text.toList
    exact htail.written_toList
  · exact Written.scan

theorem Written.isToken_of_mem {cs : List Char} {tokens : List Token} (h : Written cs tokens)
    {token : Token} (hmem : token ∈ tokens) : IsToken token := by
  induction h with
  | nil => cases hmem
  | space _ _ ih => exact ih hmem
  | bracket hc _ ih =>
    rcases List.mem_cons.1 hmem with rfl | hmem
    · exact isToken_bracket hc
    · exact ih hmem
  | atom hatom _ _ ih =>
    rcases List.mem_cons.1 hmem with rfl | hmem
    · exact .inr (.inr hatom)
    · exact ih hmem

end MiniLisp.Token
