import Mathlib.Data.List.Chain
import MiniLisp.Text.Excerpt

/-!
Excerpts of texts. A text consists of words with blanks around them, of which the excerpt keeps one space
between two words, and it is cut to its width where that is too long. A cut text is normal again, as the dots
are part of its last word (`Text.excerpts_are_cut_normal_texts`).
-/

namespace MiniLisp.Text

/-! ## Words -/

/-- Some characters, none of them blank. -/
structure IsWord (w : List Char) : Prop where
  ne_nil : w ≠ []
  not_blank : ∀ c ∈ w, isBlank c = false

instance (w : List Char) : Decidable (IsWord w) :=
  decidable_of_iff (w ≠ [] ∧ w.all (fun c => !isBlank c) = true)
    ⟨fun h => ⟨h.1, by simpa using h.2⟩, fun h => ⟨h.ne_nil, by simpa using h.not_blank⟩⟩

/-- The text consists of the words in this order, with blanks between any two of them and possibly before and
after them. -/
inductive HasWords : List Char → List (List Char) → Prop
  | nil : HasWords [] []
  | blank {c : Char} {cs : List Char} {ws : List (List Char)} (hc : isBlank c = true)
      (h : HasWords cs ws) : HasWords (c :: cs) ws
  | word {w cs : List Char} {ws : List (List Char)} (hw : IsWord w)
      (hend : ∀ c ∈ cs.head?, isBlank c = true) (h : HasWords cs ws) : HasWords (w ++ cs) (w :: ws)

theorem HasWords.isWord {cs : List Char} {ws : List (List Char)} (h : HasWords cs ws) :
    ∀ w ∈ ws, IsWord w := by
  induction h with
  | nil => exact fun w hw => absurd hw List.not_mem_nil
  | blank _ _ ih => exact ih
  | word hw _ _ ih => exact List.forall_mem_cons.2 ⟨hw, ih⟩

theorem exists_hasWords (cs : List Char) : ∃ ws, HasWords cs ws := by
  induction cs with
  | nil => exact ⟨[], .nil⟩
  | cons c cs ih =>
    obtain ⟨ws, h⟩ := ih
    cases hc : isBlank c with
    | true => exact ⟨ws, .blank hc h⟩
    | false =>
      have hword : IsWord [c] := ⟨List.cons_ne_nil c [], List.forall_mem_singleton.2 hc⟩
      cases h with
      | nil => exact ⟨[[c]], .word hword (fun _ hd => absurd hd (by simp)) .nil⟩
      | blank hd h =>
        refine ⟨[c] :: ws, .word hword ?_ (.blank hd h)⟩
        rintro d ⟨⟩
        exact hd
      | @word w cs ws hw hend h =>
        -- The character becomes the first one of the word that follows.
        have hlonger : IsWord (c :: w) :=
          ⟨List.cons_ne_nil c w, List.forall_mem_cons.2 ⟨hc, hw.not_blank⟩⟩
        exact ⟨(c :: w) :: ws, .word hlonger hend h⟩

theorem wordStep_of_not_blank {c : Char} (h : isBlank c = false) (p : Pieces) :
    wordStep c p = p.grow c := by
  rw [wordStep, h, if_neg Bool.false_ne_true]

theorem wordStep_blank {c : Char} (h : isBlank c = true) (p : Pieces) : wordStep c p = p.cut := by
  rw [wordStep, if_pos h]

/-- The words that are found in a text are those that it consists of. -/
theorem HasWords.words_eq {cs : List Char} {ws : List (List Char)} (h : HasWords cs ws) :
    words cs = ws := by
  induction h with
  | nil => rfl
  | blank hc _ ih =>
    rw [words, List.foldr_cons, wordStep_blank hc, Pieces.toList_cut]
    exact ih
  | @word w cs ws hw hend _ ih =>
    -- Nothing stands in front yet where the word ends.
    have hfront : (cs.foldr wordStep .empty).front = [] := by
      cases cs with
      | nil => rfl
      | cons d cs =>
        rw [List.foldr_cons, wordStep_blank (hend d rfl)]
        rfl
    have hgrow : w.foldr wordStep (cs.foldr wordStep .empty) = ⟨w ++ [], _⟩ :=
      hfront ▸ Pieces.foldr_grow (fun c hc p => wordStep_of_not_blank (hw.not_blank c hc) p) _
    rw [words, List.foldr_append, hgrow, List.append_nil, Pieces.toList_piece hw.ne_nil hfront]
    exact congrArg (w :: ·) ih

theorem hasWords_words (cs : List Char) : HasWords cs (words cs) := by
  obtain ⟨ws, h⟩ := exists_hasWords cs
  rw [h.words_eq]
  exact h

/-! ## Normal texts -/

/-- The text begins with no blank, its blanks are spaces, and after a space there is no other one. -/
structure SingleSpaced (cs : List Char) : Prop where
  starts : ∀ c ∈ cs.head?, isBlank c = false
  onlySpaces : ∀ c ∈ cs, isBlank c = true → c = ' '
  single : cs.IsChain fun c d => isBlank c = true → isBlank d = false

theorem SingleSpaced.append {cs ds : List Char} (h : SingleSpaced cs) (h' : SingleSpaced ds) :
    SingleSpaced (cs ++ ds) where
  starts c hc := by
    rw [List.head?_append] at hc
    cases cs with
    | nil => exact h'.starts c hc
    | cons d cs => exact h.starts c hc
  onlySpaces := List.forall_mem_append.2 ⟨h.onlySpaces, h'.onlySpaces⟩
  single := List.isChain_append.2 ⟨h.single, h'.single, fun _ _ d hd _ => h'.starts d hd⟩

theorem IsWord.singleSpaced {w : List Char} (h : IsWord w) : SingleSpaced w where
  starts c hc := h.not_blank c (List.mem_of_mem_head? hc)
  onlySpaces c hc hblank := absurd ((h.not_blank c hc).symm.trans hblank) Bool.false_ne_true
  single := by
    have hpairs : w.Pairwise fun c d => isBlank c = true → isBlank d = false :=
      List.pairwise_of_forall_mem_list fun _ _ d hd _ => h.not_blank d hd
    exact hpairs.isChain

theorem IsWord.singleSpaced_space {w : List Char} (h : IsWord w) : SingleSpaced (w ++ [' ']) where
  starts c hc := by
    rw [List.head?_append_of_ne_nil _ h.ne_nil] at hc
    exact h.singleSpaced.starts c hc
  onlySpaces := List.forall_mem_append.2
    ⟨h.singleSpaced.onlySpaces, List.forall_mem_singleton.2 fun _ => rfl⟩
  single := by
    refine List.isChain_append.2 ⟨h.singleSpaced.single, List.isChain_singleton _, ?_⟩
    intro c hc d _ hblank
    rw [h.not_blank c (List.mem_of_getLast? hc)] at hblank
    cases hblank

section

variable {ws : List (List Char)}

theorem singleSpaced_intercalate (h : ∀ w ∈ ws, IsWord w) :
    SingleSpaced ([' '].intercalate ws) := by
  induction ws with
  | nil => exact ⟨by simp, by simp, by simp⟩
  | cons w ws ih =>
    obtain ⟨hw, hws⟩ := List.forall_mem_cons.1 h
    cases ws with
    | nil =>
      rw [List.intercalate_singleton]
      exact hw.singleSpaced
    | cons w' ws =>
      rw [List.intercalate_cons_cons]
      exact hw.singleSpaced_space.append (ih hws)

theorem hasWords_intercalate (h : ∀ w ∈ ws, IsWord w) : HasWords ([' '].intercalate ws) ws := by
  induction ws with
  | nil => exact .nil
  | cons w ws ih =>
    obtain ⟨hw, hws⟩ := List.forall_mem_cons.1 h
    cases ws with
    | nil =>
      have hword := HasWords.word hw (fun _ hc => absurd hc (by simp)) .nil
      rw [List.append_nil] at hword
      rw [List.intercalate_singleton]
      exact hword
    | cons w' ws =>
      rw [List.intercalate_cons_cons, List.append_assoc]
      refine .word hw ?_ (.blank (by decide) (ih hws))
      rintro c ⟨⟩
      decide

/-- Words with one space between neighbours are a normal text. -/
theorem normalized_intercalate (h : ∀ w ∈ ws, IsWord w) :
    normalized ([' '].intercalate ws) = [' '].intercalate ws := by
  rw [normalized, (hasWords_intercalate h).words_eq]

/-! ## Cut texts -/

/-- The three dots that close a cut text. -/
def dots : List Char := ['.', '.', '.']

theorem isWord_dots : IsWord dots := by
  decide

/-- A normal text that is cut and closed by dots consists of words too: those before the cut, of which the
last one ends in the dots, or the dots alone after a space. -/
theorem exists_words_of_cut (h : ∀ w ∈ ws, IsWord w) (k : Nat) :
    ∃ ws', ws' ≠ [] ∧ (∀ w ∈ ws', IsWord w) ∧
      ([' '].intercalate ws).take k ++ dots = [' '].intercalate ws' := by
  have hdots {w : List Char} (hw : ∀ c ∈ w, isBlank c = false) : IsWord (w ++ dots) :=
    ⟨by simp [dots], List.forall_mem_append.2 ⟨hw, isWord_dots.not_blank⟩⟩
  induction ws generalizing k with
  | nil => exact ⟨[dots], List.cons_ne_nil _ _, List.forall_mem_singleton.2 isWord_dots, by simp⟩
  | cons w ws ih =>
    obtain ⟨hw, hws⟩ := List.forall_mem_cons.1 h
    have hlast : IsWord (w.take k ++ dots) :=
      hdots fun c hc => hw.not_blank c (List.mem_of_mem_take hc)
    cases ws with
    | nil =>
      refine ⟨[w.take k ++ dots], List.cons_ne_nil _ _, List.forall_mem_singleton.2 hlast, ?_⟩
      rw [List.intercalate_singleton, List.intercalate_singleton]
    | cons w' ws =>
      rw [List.intercalate_cons_cons]
      by_cases hk : k ≤ w.length
      · refine ⟨[w.take k ++ dots], List.cons_ne_nil _ _, List.forall_mem_singleton.2 hlast, ?_⟩
        rw [List.append_assoc, List.take_append_of_le_length hk, List.intercalate_singleton]
      · obtain ⟨more, rfl⟩ : ∃ more, k = (w ++ [' ']).length + more :=
          ⟨k - (w ++ [' ']).length, by simp; omega⟩
        obtain ⟨ws', hne, hws', hcut⟩ := ih hws more
        refine ⟨w :: ws', List.cons_ne_nil _ _, List.forall_mem_cons.2 ⟨hw, hws'⟩, ?_⟩
        rw [List.take_length_add_append, List.append_assoc, hcut]
        cases ws' with
        | nil => exact absurd rfl hne
        | cons first ws' => rw [List.intercalate_cons_cons]

end

/-! ## Excerpts -/

theorem isWord_words (cs : List Char) : ∀ w ∈ words cs, IsWord w :=
  (hasWords_words cs).isWord

/-- An excerpt is the normal text, or else as much of it as the width says and three dots. -/
theorem excerptChars_cases (width : Int) (cs : List Char) :
    (((normalized cs).length : Int) ≤ width ∧ excerptChars width cs = normalized cs) ∨
      (width < (normalized cs).length ∧
        excerptChars width cs = upTo (width - 3) (normalized cs) ++ dots) := by
  unfold excerptChars
  dsimp only
  split
  · next h => exact .inl ⟨h, rfl⟩
  · next h => exact .inr ⟨by omega, rfl⟩

theorem exists_upTo_eq_take (stop : Int) (cs : List Char) : ∃ k, upTo stop cs = cs.take k := by
  unfold upTo
  split
  · exact ⟨_, rfl⟩
  · exact ⟨_, rfl⟩

theorem exists_words_of_excerpt (width : Int) (cs : List Char) :
    ∃ ws, (∀ w ∈ ws, IsWord w) ∧ excerptChars width cs = [' '].intercalate ws := by
  rcases excerptChars_cases width cs with ⟨-, hwhole⟩ | ⟨-, hcut⟩
  · exact ⟨words cs, isWord_words cs, hwhole⟩
  · obtain ⟨k, hk⟩ := exists_upTo_eq_take (width - 3) (normalized cs)
    obtain ⟨ws, -, hws, hdots⟩ := exists_words_of_cut (isWord_words cs) k
    exact ⟨ws, hws, by rw [hcut, hk]; exact hdots⟩

theorem excerptChars_of_le {width : Int} {cs : List Char}
    (h : ((normalized cs).length : Int) ≤ width) : excerptChars width cs = normalized cs := by
  rcases excerptChars_cases width cs with ⟨-, hwhole⟩ | ⟨hlt, -⟩
  · exact hwhole
  · omega

/-- An excerpt is a normal text, whatever its width. -/
theorem normalized_excerptChars (width : Int) (cs : List Char) :
    normalized (excerptChars width cs) = excerptChars width cs := by
  obtain ⟨ws, hws, hwords⟩ := exists_words_of_excerpt width cs
  rw [hwords, normalized_intercalate hws]

theorem singleSpaced_excerptChars (width : Int) (cs : List Char) :
    SingleSpaced (excerptChars width cs) := by
  obtain ⟨ws, hws, hwords⟩ := exists_words_of_excerpt width cs
  rw [hwords]
  exact singleSpaced_intercalate hws

/-- From a width of three on, the excerpt of a longer text fills the width. -/
theorem excerptChars_of_lt {width : Int} (hwidth : 3 ≤ width) {cs : List Char}
    (h : width < (normalized cs).length) :
    excerptChars width cs = (normalized cs).take (width - 3).toNat ++ dots ∧
      ((excerptChars width cs).length : Int) = width := by
  have hcut : excerptChars width cs = (normalized cs).take (width - 3).toNat ++ dots := by
    rcases excerptChars_cases width cs with ⟨hle, -⟩ | ⟨-, hcut⟩
    · omega
    · rw [hcut, upTo, if_pos (by omega)]
  refine ⟨hcut, ?_⟩
  rw [hcut, List.length_append, List.length_take]
  show ((min (width - 3).toNat (normalized cs).length + 3 : Nat) : Int) = width
  omega

theorem length_excerptChars_le {width : Int} (hwidth : 3 ≤ width) (cs : List Char) :
    ((excerptChars width cs).length : Int) ≤ width := by
  rcases excerptChars_cases width cs with ⟨hle, hwhole⟩ | ⟨hlt, -⟩
  · rw [hwhole]
    exact hle
  · exact Int.le_of_eq (excerptChars_of_lt hwidth hlt).2

/-- An excerpt within its width is left as it is, as nothing of it is cut off. -/
theorem excerptChars_excerptChars {width : Int} (hwidth : 3 ≤ width) (cs : List Char) :
    excerptChars width (excerptChars width cs) = excerptChars width cs := by
  have hnormal := normalized_excerptChars width cs
  rw [excerptChars_of_le (by rw [hnormal]; exact length_excerptChars_le hwidth cs), hnormal]

/-- Below a width of three, the width counts from the end of the text. -/
theorem length_excerptChars_narrow {width : Int} (hwidth : width < 3) {cs : List Char}
    (h : width < (normalized cs).length) :
    ((excerptChars width cs).length : Int) = max 0 ((normalized cs).length + width - 3) + 3 := by
  rcases excerptChars_cases width cs with ⟨hle, -⟩ | ⟨-, hcut⟩
  · omega
  · rw [hcut, upTo, if_neg (by omega), List.length_append, List.length_take]
    show ((min ((normalized cs).length + (width - 3)).toNat (normalized cs).length + 3 : Nat) : Int) = _
    omega

/-- The words of a text decide its excerpt. With a width of three or more, the excerpt has no more characters,
begins with no blank and has no blanks but single spaces; it is the normal text exactly if that fits in the
width, and else the first characters of it and three dots; and the excerpt of an excerpt is the same. With a
smaller width the excerpt of a longer text counts the width from its end, so that it is even longer than the
text if the width is one or two. -/
theorem excerpts_are_cut_normal_texts :
    (∀ (code : String) (width : Int), 3 ≤ width →
      ((excerpt code width).length : Int) ≤ width ∧ SingleSpaced (excerpt code width).toList ∧
      ((excerpt code width).toList = normalized code.toList ↔
        ((normalized code.toList).length : Int) ≤ width) ∧
      (width < (normalized code.toList).length → (excerpt code width).toList =
        (normalized code.toList).take (width - 3).toNat ++ ['.', '.', '.']) ∧
      excerpt (excerpt code width) width = excerpt code width) ∧
    (∀ code : String, ∃ ws, HasWords code.toList ws ∧
      normalized code.toList = [' '].intercalate ws) ∧
    (∀ (code code' : String) (ws : List (List Char)) (width : Int), HasWords code.toList ws →
      HasWords code'.toList ws → excerpt code width = excerpt code' width) ∧
    ∀ (code : String) (width : Int), width < 3 → width < (normalized code.toList).length →
      ((excerpt code width).length : Int) =
        max 0 ((normalized code.toList).length + width - 3) + 3 ∧
      (1 ≤ width → (normalized code.toList).length < (excerpt code width).length) := by
  refine ⟨fun code width hwidth => ?_, fun code => ⟨_, hasWords_words _, rfl⟩,
    fun code code' ws width h h' => ?_, fun code width hwidth h => ?_⟩
  · have hlength := length_excerptChars_le hwidth code.toList
    have hagain := excerptChars_excerptChars hwidth code.toList
    simp only [excerpt, String.length_ofList, String.toList_ofList]
    refine ⟨hlength, singleSpaced_excerptChars width _, ⟨fun hwhole => ?_, excerptChars_of_le⟩,
      fun hlt => (excerptChars_of_lt hwidth hlt).1, congrArg String.ofList hagain⟩
    rw [← hwhole]
    exact hlength
  · rw [excerpt, excerpt, excerptChars, excerptChars, normalized, normalized, h.words_eq, h'.words_eq]
  · have hnarrow := length_excerptChars_narrow hwidth h
    rw [excerpt, String.length_ofList]
    exact ⟨hnarrow, fun hpos => by omega⟩

/-- A call whose parts are spread out. -/
abbrev spreadCall : String := "\u3000(cons \t 1\n\n2) "

/-- The same call with one blank between any two parts. -/
abbrev closeCall : String := "(cons\u00a01\u20282)"

/-- A width that ends the cut text with a space, and one that is too small for the dots. -/
theorem excerpts_of_a_call :
    let ws := [['(', 'c', 'o', 'n', 's'], ['1'], ['2', ')']]
    (3 : Int) ≤ 9 ∧ HasWords spreadCall.toList ws ∧ HasWords closeCall.toList ws ∧
      (9 : Int) < (normalized spreadCall.toList).length ∧ excerpt spreadCall 9 = "(cons ..." ∧
      excerpt (excerpt spreadCall 9) 9 = excerpt spreadCall 9 ∧
      excerpt spreadCall 9 = excerpt closeCall 9 ∧
      (1 : Int) < (normalized spreadCall.toList).length ∧
      (normalized spreadCall.toList).length = 10 ∧ ((excerpt spreadCall 1).length : Int) = 11 := by
  intro ws
  obtain ⟨hwide, -, hsame, hnarrow⟩ := excerpts_are_cut_normal_texts
  have hspread : words spreadCall.toList = ws := by decide +kernel
  have hclose : words closeCall.toList = ws := by decide +kernel
  have hwords : HasWords spreadCall.toList ws := hspread ▸ hasWords_words _
  have hwords' : HasWords closeCall.toList ws := hclose ▸ hasWords_words _
  have hlength : (normalized spreadCall.toList).length = 10 := by
    rw [normalized, hspread]
    rfl
  have hlong : (9 : Int) < (normalized spreadCall.toList).length := by
    rw [hlength]
    decide
  have hshort : (1 : Int) < (normalized spreadCall.toList).length := by
    rw [hlength]
    decide
  obtain ⟨-, -, -, hcut, hagain⟩ := hwide spreadCall 9 (by decide)
  refine ⟨by decide, hwords, hwords', hlong, ?_, hagain, hsame _ _ ws 9 hwords hwords', hshort, hlength, ?_⟩
  · apply String.toList_injective
    rw [hcut hlong, normalized, hspread]
    rfl
  · rw [(hnarrow spreadCall 1 (by decide) hshort).1, hlength]
    decide

end MiniLisp.Text
