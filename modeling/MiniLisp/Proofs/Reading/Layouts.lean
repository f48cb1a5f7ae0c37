import Mathlib.Data.List.Chain
import MiniLisp.Proofs.Reading.WrittenTokens

/-!
Texts as layouts of their tokens: the tokens in order, with white space before, between and after them. A text
is laid out from its own tokens and from no others, so nothing but white space is lost, and texts put
together have the tokens of both, unless an atom runs on from one into the other (`Token.ofText_is_exact`).
-/

namespace MiniLisp.Token

/-- A token with what comes after it, and the next token: between two atoms there is something. -/
def Separated (part next : Token × List Char) : Prop :=
  IsAtom part.1 → IsAtom next.1 → part.2 ≠ []

instance (part next : Token × List Char) : Decidable (Separated part next) :=
  inferInstanceAs (Decidable (_ → _))

/-- The characters are the tokens in order, with a gap before the first one and after each of them. A part is a
token with the gap after it. -/
structure LaidOut (cs before : List Char) (parts : List (Token × List Char)) : Prop where
  eq_append : cs = before ++ parts.flatMap fun part => part.1.toList ++ part.2
  gap_before : IsGap before
  gap_after : ∀ part ∈ parts, IsGap part.2
  isToken : ∀ part ∈ parts, IsToken part.1
  separated : parts.IsChain Separated

variable {cs before : List Char} {tokens : List Token} {token : Token}
  {parts : List (Token × List Char)}

/-! ## Tokens -/

theorem IsToken.eq_bracket (h : IsToken token) (hatom : ¬ IsAtom token) :
    ∃ c, isBracket c = true ∧ token = String.ofList [c] := by
  rcases h with rfl | rfl | h
  · exact ⟨'(', by decide, rfl⟩
  · exact ⟨')', by decide, rfl⟩
  · exact absurd h hatom

theorem not_isAtom_bracket {c : Char} (h : isBracket c = true) : ¬ IsAtom (String.ofList [c]) := by
  intro hatom
  have hc := hatom.isAtomChar c (by simp)
  rw [isAtomChar_eq_false_iff.2 (.inl h)] at hc
  cases hc

theorem IsAtom.not_endsAtom (h : IsAtom token) (cs : List Char) : ¬ EndsAtom (token.toList ++ cs) := by
  intro hend
  cases hchars : token.toList with
  | nil => exact h.toList_ne_nil hchars
  | cons c chars =>
    have hc := h.isAtomChar c (by rw [hchars]; exact List.mem_cons_self)
    rw [hchars, List.cons_append, endsAtom_cons, hc] at hend
    cases hend

/-! ## A text writes the tokens that it is laid out from -/

/-- No atom goes on after the atom of a first part. -/
theorem endsAtom_after_atom {part : Token × List Char} (hatom : IsAtom part.1) (hgap : IsGap part.2)
    (htokens : ∀ next ∈ parts, IsToken next.1) (hsep : (part :: parts).IsChain Separated) :
    EndsAtom (part.2 ++ parts.flatMap fun part => part.1.toList ++ part.2) := by
  obtain ⟨text, gap⟩ := part
  cases gap with
  | cons c gap =>
    have hc : isSpace c = true := hgap c List.mem_cons_self
    exact endsAtom_cons.2 (isAtomChar_eq_false_iff.2 (.inr hc))
  | nil =>
    cases parts with
    | nil => exact endsAtom_nil
    | cons next parts =>
      -- Without white space before it, the next token can only be a bracket.
      have hnext : ¬ IsAtom next.1 := fun hnext => (List.isChain_cons_cons.1 hsep).1 hatom hnext rfl
      obtain ⟨c, hc, hbracket⟩ := (htokens next List.mem_cons_self).eq_bracket hnext
      rw [List.nil_append, List.flatMap_cons, hbracket, String.toList_ofList]
      exact endsAtom_cons.2 (isAtomChar_eq_false_iff.2 (.inl hc))

theorem written_parts (hgaps : ∀ part ∈ parts, IsGap part.2)
    (htokens : ∀ part ∈ parts, IsToken part.1) (hsep : parts.IsChain Separated) :
    Written (parts.flatMap fun part => part.1.toList ++ part.2) (parts.map Prod.fst) := by
  induction parts with
  | nil => exact .nil
  | cons part parts ih =>
    obtain ⟨hgap, hgaps⟩ := List.forall_mem_cons.1 hgaps
    obtain ⟨htoken, htokens⟩ := List.forall_mem_cons.1 htokens
    have hrest := (ih hgaps htokens hsep.tail).gap hgap
    rw [List.flatMap_cons, List.map_cons, List.append_assoc]
    by_cases hatom : IsAtom part.1
    · exact .atom hatom (endsAtom_after_atom hatom hgap htokens hsep) hrest
    · obtain ⟨c, hc, hbracket⟩ := htoken.eq_bracket hatom
      rw [hbracket, String.toList_ofList]
      exact .bracket hc hrest

theorem LaidOut.written (h : LaidOut cs before parts) : Written cs (parts.map Prod.fst) := by
  rw [h.eq_append]
  exact (written_parts h.gap_after h.isToken h.separated).gap h.gap_before

/-- A token in front of a layout, if it is no atom that goes on there. -/
theorem LaidOut.cons (h : LaidOut cs before parts) (htoken : IsToken token)
    (hend : IsAtom token → EndsAtom cs) :
    LaidOut (token.toList ++ cs) [] ((token, before) :: parts) := by
  refine ⟨?_, by simp [IsGap], List.forall_mem_cons.2 ⟨h.gap_before, h.gap_after⟩,
    List.forall_mem_cons.2 ⟨htoken, h.isToken⟩, List.isChain_cons.2 ⟨?_, h.separated⟩⟩
  · rw [List.nil_append, List.flatMap_cons, List.append_assoc, ← h.eq_append]
  · intro next hnext hatom hnextAtom hnone
    obtain ⟨rest, rfl⟩ := List.head?_eq_some_iff.1 hnext
    have hcs := hend hatom
    rw [h.eq_append, show before = [] from hnone, List.nil_append, List.flatMap_cons,
      List.append_assoc] at hcs
    exact hnextAtom.not_endsAtom _ hcs

theorem Written.exists_laidOut (h : Written cs tokens) :
    ∃ before parts, parts.map Prod.fst = tokens ∧ LaidOut cs before parts := by
  induction h with
  | nil => exact ⟨[], [], rfl, rfl, by simp [IsGap], by simp, by simp, .nil⟩
  | @space c cs tokens hc _ ih =>
    obtain ⟨before, parts, hparts, h⟩ := ih
    exact ⟨c :: before, parts, hparts, by rw [h.eq_append, List.cons_append],
      List.forall_mem_cons.2 ⟨hc, h.gap_before⟩, h.gap_after, h.isToken, h.separated⟩
  | @bracket c cs tokens hc _ ih =>
    obtain ⟨before, parts, rfl, h⟩ := ih
    have hcons := h.cons (isToken_bracket hc) fun hatom => absurd hatom (not_isAtom_bracket hc)
    rw [String.toList_ofList] at hcons
    exact ⟨[], (String.ofList [c], before) :: parts, rfl, hcons⟩
  | @atom text cs tokens hatom hend _ ih =>
    obtain ⟨before, parts, rfl, h⟩ := ih
    exact ⟨[], (text, before) :: parts, rfl, h.cons (.inr (.inr hatom)) fun _ => hend⟩

/-! ## Characters in tokens -/

theorem not_isSpace_eq_decide (c : Char) : (!isSpace c) = decide (c ∉ [' ', '\t', '\n', '\r']) := by
  simp [isSpace, beq_eq_decide, Bool.and_assoc]

theorem isAtomChar_eq_decide (c : Char) :
    isAtomChar c = decide (c ∉ ['(', ')', ' ', '\t', '\n', '\r']) := by
  simp [isAtomChar, isBracket, isSpace, beq_eq_decide, Bool.and_assoc]

/-- The tokens have all characters but the white space, in order. -/
theorem Written.flatMap_toList (h : Written cs tokens) :
    tokens.flatMap String.toList = cs.filter fun c => !isSpace c := by
  induction h with
  | nil => rfl
  | space hc _ ih => rw [List.filter_cons_of_neg (by rw [hc]; decide), ih]
  | @bracket c cs tokens hc _ ih =>
    have hspace : isSpace c = false := by
      by_contra hspace
      rw [Bool.not_eq_false] at hspace
      rw [isBracket_of_isSpace hspace] at hc
      cases hc
    rw [List.filter_cons_of_pos (by rw [hspace]; decide), List.flatMap_cons, ih,
      String.toList_ofList, List.singleton_append]
  | @atom text cs tokens hatom _ _ ih =>
    have hall : text.toList.filter (fun c => !isSpace c) = text.toList :=
      List.filter_eq_self.2 fun c hc => (Bool.and_eq_true_iff.1 (hatom.isAtomChar c hc)).2
    rw [List.filter_append, hall, List.flatMap_cons, ih]

/-- The atoms have all characters but the white space and the brackets, in order. -/
theorem Written.flatMap_atoms (h : Written cs tokens) :
    (tokens.filter fun token => decide (IsAtom token)).flatMap String.toList = cs.filter isAtomChar := by
  induction h with
  | nil => rfl
  | @space c cs tokens hc _ ih =>
    rw [List.filter_cons_of_neg (by rw [isAtomChar_eq_false_iff.2 (.inr hc)]; decide), ih]
  | @bracket c cs tokens hc _ ih =>
    rw [List.filter_cons_of_neg (by simpa using not_isAtom_bracket hc), ih,
      List.filter_cons_of_neg (by rw [isAtomChar_eq_false_iff.2 (.inl hc)]; decide)]
  | @atom text cs tokens hatom _ _ ih =>
    rw [List.filter_cons_of_pos (by simpa using hatom), List.flatMap_cons, ih, List.filter_append,
      List.filter_eq_self.2 hatom.isAtomChar]

/-! ## Texts put together -/

variable {ds : List Char} {others : List Token} {atom : Token}

/-- The first characters end, and the others start, in the middle of an atom. -/
def Touch (cs ds : List Char) : Prop :=
  (∃ c ∈ cs.getLast?, isAtomChar c = true) ∧ ∃ d ∈ ds.head?, isAtomChar d = true

instance (cs ds : List Char) : Decidable (Touch cs ds) :=
  decidable_of_iff (cs.getLast?.any isAtomChar = true ∧ ds.head?.any isAtomChar = true)
    (and_congr (Option.any_eq_true _ _) (Option.any_eq_true _ _))

theorem Written.append_of_not_touch (h : Written cs tokens) (hothers : Written ds others)
    (hapart : ¬ Touch cs ds) : Written (cs ++ ds) (tokens ++ others) := by
  refine h.append hothers fun c hc hatom d hd => ?_
  rw [← Bool.not_eq_true]
  exact fun hd' => hapart ⟨⟨c, hc, hatom⟩, d, hd, hd'⟩

theorem IsAtom.append (h : IsAtom token) (hatom : IsAtom atom) : IsAtom (token ++ atom) := by
  refine ⟨fun hempty => h.ne_empty (String.append_eq_empty_iff.1 hempty).1, fun c hc => ?_⟩
  rw [String.toList_append] at hc
  rcases List.mem_append.1 hc with hc | hc
  · exact h.isAtomChar c hc
  · exact hatom.isAtomChar c hc

/-- Characters that start in an atom write one first. -/
theorem Written.exists_atom_of_head? (h : Written cs tokens) (hhead : ∃ c ∈ cs.head?, isAtomChar c = true) :
    ∃ atom rest others, IsAtom atom ∧ cs = atom.toList ++ rest ∧ tokens = atom :: others ∧
      EndsAtom rest ∧ Written rest others := by
  obtain ⟨d, hd, hatomChar⟩ := hhead
  cases h with
  | nil => cases hd
  | space hc _ =>
    cases hd
    rw [isAtomChar_eq_false_iff.2 (.inr hc)] at hatomChar
    cases hatomChar
  | bracket hc _ =>
    cases hd
    rw [isAtomChar_eq_false_iff.2 (.inl hc)] at hatomChar
    cases hatomChar
  | atom hatom hend h => exact ⟨_, _, _, hatom, rfl, rfl, hend, h⟩

theorem exists_getLast?_of_cons {c : Char} (hc : isAtomChar c = false)
    (hlast : ∃ d ∈ (c :: cs).getLast?, isAtomChar d = true) : ∃ d ∈ cs.getLast?, isAtomChar d = true := by
  cases cs with
  | nil =>
    obtain ⟨d, hd, hatomChar⟩ := hlast
    rw [List.getLast?_singleton] at hd
    cases hd
    rw [hc] at hatomChar
    cases hatomChar
  | cons e cs => rwa [List.getLast?_cons_cons] at hlast

/-- An atom that follows characters which end in an atom goes on with the last one that they write. -/
theorem Written.join (h : Written cs tokens) (hlast : ∃ c ∈ cs.getLast?, isAtomChar c = true)
    (hatom : IsAtom atom) (hend : EndsAtom ds) (hothers : Written ds others) :
    ∃ front last, tokens = front ++ [last] ∧ IsAtom last ∧
      Written (cs ++ (atom.toList ++ ds)) (front ++ (last ++ atom) :: others) := by
  induction h with
  | nil =>
    obtain ⟨c, hc, _⟩ := hlast
    cases hc
  | space hc _ ih =>
    obtain ⟨front, last, htokens, hlastAtom, h⟩ :=
      ih (exists_getLast?_of_cons (isAtomChar_eq_false_iff.2 (.inr hc)) hlast)
    exact ⟨front, last, htokens, hlastAtom, .space hc h⟩
  | @bracket c _ _ hc _ ih =>
    obtain ⟨front, last, rfl, hlastAtom, h⟩ :=
      ih (exists_getLast?_of_cons (isAtomChar_eq_false_iff.2 (.inl hc)) hlast)
    exact ⟨String.ofList [c] :: front, last, rfl, hlastAtom, .bracket hc h⟩
  | @atom text cs tokens htext htextEnd hcs ih =>
    cases cs with
    | nil =>
      have htokens : [] = tokens := hcs.scan
      have hjoined := Written.atom (htext.append hatom) hend hothers
      rw [String.toList_append, List.append_assoc] at hjoined
      rw [← htokens, List.append_nil]
      exact ⟨[], text, rfl, htext, hjoined⟩
    | cons c cs =>
      rw [List.getLast?_append_of_ne_nil _ (List.cons_ne_nil c cs)] at hlast
      obtain ⟨front, last, rfl, hlastAtom, h⟩ := ih hlast
      rw [List.append_assoc]
      exact ⟨text :: front, last, rfl, hlastAtom, .atom htext htextEnd h⟩

/-- The tokens of a text are the only ones that it can be laid out from: each a bracket or an atom, with white
space before, between and after them, and some between any two atoms. So the tokens together are the text
without its white space, and the atoms are the text without its brackets as well: every other character is
in one. Two texts together have the tokens of both, but for an atom that goes on from one into the other. -/
theorem ofText_is_exact :
    (∀ text tokens, ofText text = tokens ↔
      ∃ before parts, parts.map Prod.fst = tokens ∧ LaidOut text.toList before parts) ∧
    (∀ text, String.join (ofText text) =
      String.ofList (text.toList.filter (· ∉ [' ', '\t', '\n', '\r']))) ∧
    (∀ text, String.join ((ofText text).filter (IsAtom ·)) =
      String.ofList (text.toList.filter (· ∉ ['(', ')', ' ', '\t', '\n', '\r']))) ∧
    ∀ text more,
      (¬ Touch text.toList more.toList → ofText (text ++ more) = ofText text ++ ofText more) ∧
      (Touch text.toList more.toList → ∃ front last first back,
        ofText text = front ++ [last] ∧ ofText more = first :: back ∧ IsAtom last ∧ IsAtom first ∧
          ofText (text ++ more) = front ++ (last ++ first) :: back) := by
  have hwritten (text : String) : Written text.toList (ofText text) := ofText_eq_iff.1 rfl
  refine ⟨fun text tokens => ⟨fun h => (ofText_eq_iff.1 h).exists_laidOut, ?_⟩, fun text => ?_,
    fun text => ?_, fun text more => ⟨fun hapart => ?_, fun ⟨hlast, hfirst⟩ => ?_⟩⟩
  · rintro ⟨before, parts, rfl, h⟩
    exact ofText_eq_iff.2 h.written
  · rw [← String.toList_inj, String.toList_join, (hwritten text).flatMap_toList, String.toList_ofList]
    exact List.filter_congr fun c _ => not_isSpace_eq_decide c
  · rw [← String.toList_inj, String.toList_join, (hwritten text).flatMap_atoms, String.toList_ofList]
    exact List.filter_congr fun c _ => isAtomChar_eq_decide c
  · rw [ofText_eq_iff, String.toList_append]
    exact (hwritten text).append_of_not_touch (hwritten more) hapart
  · obtain ⟨first, rest, back, hfirstAtom, hmore, hback, hend, hrest⟩ :=
      (hwritten more).exists_atom_of_head? hfirst
    obtain ⟨front, last, hfront, hlastAtom, h⟩ := (hwritten text).join hlast hfirstAtom hend hrest
    refine ⟨front, last, first, back, hfront, hback, hlastAtom, hfirstAtom, ?_⟩
    rw [ofText_eq_iff, String.toList_append, hmore]
    exact h

/-- A space that is not white space between tokens stands in an atom, and the last atom of a text goes on in the
next one. -/
theorem ofText_nonbreaking_space :
    LaidOut "( f\u00a0a b".toList [] [("(", [' ']), ("f\u00a0a", [' ']), ("b", [])] ∧
      ofText "( f\u00a0a b" = ["(", "f\u00a0a", "b"] ∧
      Touch "( f\u00a0a b".toList "c)".toList ∧
      (∃ front last first back, ofText "( f\u00a0a b" = front ++ [last] ∧ ofText "c)" = first :: back ∧
        IsAtom last ∧ IsAtom first ∧
        ofText ("( f\u00a0a b" ++ "c)") = front ++ (last ++ first) :: back) ∧
      ¬ Touch "( f\u00a0a b".toList " c)".toList ∧
      ofText ("( f\u00a0a b" ++ " c)") = ofText "( f\u00a0a b" ++ ofText " c)" := by
  have hlaidOut : LaidOut "( f\u00a0a b".toList [] [("(", [' ']), ("f\u00a0a", [' ']), ("b", [])] :=
    ⟨by decide, by decide, by decide, by decide, by decide⟩
  have htouch : Touch "( f\u00a0a b".toList "c)".toList := by decide
  have hapart : ¬ Touch "( f\u00a0a b".toList " c)".toList := by decide
  exact ⟨hlaidOut, (ofText_is_exact.1 _ _).2 ⟨_, _, rfl, hlaidOut⟩, htouch,
    (ofText_is_exact.2.2.2 _ _).2 htouch, hapart, (ofText_is_exact.2.2.2 _ _).1 hapart⟩

end MiniLisp.Token
