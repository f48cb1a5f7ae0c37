import MiniLisp.Text.Quoted
import MiniLisp.Text.Sequence

/-!
Forms that show where they end. Whatever follows it, a quoted text is told from any other one and from what
follows (`Text.selfDelimiting_quoted`), since an escape tells how many characters it has. The same holds of
tuples whose parts show where they end (`Text.SelfDelimiting.tupled`).
-/

namespace MiniLisp.Text

/-- Whatever follows it, the form of the thing is told from those of all others, and from what follows. -/
def SelfDelimiting {α : Type} (form : α → String) (a : α) : Prop :=
  ∀ b rest rest', (form a).toList ++ rest = (form b).toList ++ rest' → a = b ∧ rest = rest'

/-- Characters of a kind are told from what follows, if that begins with a character of another kind. -/
theorem append_inj_of_ends {isKind : Char → Bool} {cs ds rest rest' : List Char}
    (hcs : ∀ c ∈ cs, isKind c = true) (hds : ∀ c ∈ ds, isKind c = true)
    (hrest : ∀ c ∈ rest.head?, isKind c = false) (hrest' : ∀ c ∈ rest'.head?, isKind c = false)
    (h : cs ++ rest = ds ++ rest') : cs = ds ∧ rest = rest' := by
  have hends {tail : List Char} (htail : ∀ c ∈ tail.head?, isKind c = false) :
      tail.takeWhile isKind = [] := by
    cases tail with
    | nil => rfl
    | cons c tail => rw [List.takeWhile_cons, htail c rfl, if_neg Bool.false_ne_true]
  have hkind := congrArg (List.takeWhile isKind) h
  rw [List.takeWhile_append_of_pos hcs, List.takeWhile_append_of_pos hds, hends hrest, hends hrest',
    List.append_nil, List.append_nil] at hkind
  rw [hkind] at h
  exact ⟨hkind, List.append_cancel_left h⟩

/-! ## Hexadecimal digits -/

/-- What a hexadecimal digit is worth. -/
def hexWorth (c : Char) : Nat :=
  if c.isDigit then c.toNat - '0'.toNat else c.toNat - 'a'.toNat + 10

/-- The number that hexadecimal digits spell. -/
def ofHexDigits (digits : List Char) : Nat :=
  digits.foldl (fun n c => 16 * n + hexWorth c) 0

theorem hexWorth_digitChar {d : Nat} (h : d < 16) : hexWorth d.digitChar = d :=
  (by decide : ∀ d < 16, hexWorth d.digitChar = d) d h

theorem ofHexDigits_concat (digits : List Char) (c : Char) :
    ofHexDigits (digits ++ [c]) = 16 * ofHexDigits digits + hexWorth c := by
  rw [ofHexDigits, List.foldl_append]
  rfl

theorem ofHexDigits_toDigits (n : Nat) : ofHexDigits (Nat.toDigits 16 n) = n := by
  induction n using Nat.strongRecOn with
  | ind n ih =>
    by_cases h : n < 16
    · rw [Nat.toDigits_of_lt_base h, ← List.nil_append [_], ofHexDigits_concat, hexWorth_digitChar h]
      exact Nat.zero_add n
    · have hlast : n % 16 < 16 := Nat.mod_lt n (by decide)
      rw [Nat.toDigits_of_base_le (by decide) (Nat.le_of_not_lt h), ofHexDigits_concat,
        ih (n / 16) (by omega), hexWorth_digitChar hlast]
      omega

/-- Zeros in front do not count. -/
theorem ofHexDigits_hexDigits (width n : Nat) : ofHexDigits (hexDigits width n) = n := by
  have hzeros (zeros : Nat) (digits : List Char) :
      ofHexDigits (List.replicate zeros '0' ++ digits) = ofHexDigits digits := by
    induction zeros with
    | zero => rfl
    | succ zeros ih => exact ih
  exact (hzeros _ _).trans (ofHexDigits_toDigits n)

theorem length_hexDigits {width n : Nat} (hwidth : 0 < width) (h : n < Nat.pow 16 width) :
    (hexDigits width n).length = width := by
  have hdigits := (Nat.length_toDigits_le_iff (by decide) hwidth).2 h
  rw [hexDigits, List.length_append, List.length_replicate]
  omega

/-! ## Quoted texts -/

/-- The character with the code point that the next hexadecimal digits spell, and what follows them. -/
def readCode (width : Nat) (cs : List Char) : Char × List Char :=
  (Char.ofNat (ofHexDigits (cs.take width)), cs.drop width)

/-- The character that an escape stands for, of which the backslash is read already, and what follows. -/
def readEscape : List Char → Option (Char × List Char)
  | [] => none
  | 'n' :: cs => some ('\n', cs)
  | 'r' :: cs => some ('\r', cs)
  | 't' :: cs => some ('\t', cs)
  | 'x' :: cs => some (readCode 2 cs)
  | 'u' :: cs => some (readCode 4 cs)
  | 'U' :: cs => some (readCode 8 cs)
  | c :: cs => some (c, cs)

/-- The first character of a text within quotes, and what follows it. -/
def readChar : List Char → Option (Char × List Char)
  | [] => none
  | c :: cs => if c = '\\' then readEscape cs else some (c, cs)

theorem readCode_hexDigits {width : Nat} {c : Char} (hwidth : 0 < width) (h : c.toNat < Nat.pow 16 width)
    (rest : List Char) : readCode width (hexDigits width c.toNat ++ rest) = (c, rest) := by
  have hlength := length_hexDigits hwidth h
  rw [readCode, List.take_left' hlength, List.drop_left' hlength, ofHexDigits_hexDigits,
    Char.ofNat_toNat]

theorem readEscape_escapeCode (c : Char) (rest : List Char) :
    ∃ letters, escapeCode c.toNat ++ rest = '\\' :: letters ∧ readEscape letters = some (c, rest) := by
  unfold escapeCode
  split
  · next h => exact ⟨_, rfl, congrArg some (readCode_hexDigits (by decide) h rest)⟩
  split
  · next h => exact ⟨_, rfl, congrArg some (readCode_hexDigits (by decide) h rest)⟩
  · have hlargest : c.toNat < Nat.pow 16 8 := c.val.toNat_lt
    exact ⟨_, rfl, congrArg some (readCode_hexDigits (by decide) hlargest rest)⟩

theorem enclosingQuote_cases (cs : List Char) : enclosingQuote cs = '"' ∨ enclosingQuote cs = '\'' := by
  unfold enclosingQuote
  split
  · exact .inl rfl
  · exact .inr rfl

section

variable {quote : Char} (hquote : quote = '"' ∨ quote = '\'')

include hquote

/-- A character within quotes is read back, and does not begin with the enclosing quote. -/
theorem readChar_escapeChar (c : Char) (rest : List Char) :
    readChar (escapeChar quote c ++ rest) = some (c, rest) ∧
      (escapeChar quote c ++ rest).head? ≠ some quote := by
  have hbackslash : some '\\' ≠ some quote := by
    rcases hquote with rfl | rfl <;> decide
  unfold escapeChar
  split
  · next h =>
    refine ⟨?_, hbackslash⟩
    rcases h with rfl | rfl
    · rcases hquote with rfl | rfl <;> rfl
    · rfl
  next hplain =>
  split
  · next h => exact ⟨by rw [h]; rfl, hbackslash⟩
  split
  · next h => exact ⟨by rw [h]; rfl, hbackslash⟩
  split
  · next h => exact ⟨by rw [h]; rfl, hbackslash⟩
  split
  · obtain ⟨hne, hescape⟩ := not_or.1 hplain
    exact ⟨if_neg hescape, fun hhead => hne (Option.some.inj hhead)⟩
  · obtain ⟨letters, hletters, hread⟩ := readEscape_escapeCode c rest
    rw [hletters]
    exact ⟨hread, hbackslash⟩

/-- Within quotes, a text ends at the first enclosing quote that is not escaped. -/
theorem escaped_inj {cs ds rest rest' : List Char}
    (h : cs.flatMap (escapeChar quote) ++ quote :: rest =
      ds.flatMap (escapeChar quote) ++ quote :: rest') : cs = ds ∧ rest = rest' := by
  induction cs generalizing ds with
  | nil =>
    cases ds with
    | nil => exact ⟨rfl, (List.cons.inj h).2⟩
    | cons d ds =>
      rw [List.flatMap_cons, List.append_assoc] at h
      exact absurd (congrArg List.head? h.symm) (readChar_escapeChar hquote d _).2
  | cons c cs ih =>
    rw [List.flatMap_cons, List.append_assoc] at h
    cases ds with
    | nil => exact absurd (congrArg List.head? h) (readChar_escapeChar hquote c _).2
    | cons d ds =>
      rw [List.flatMap_cons, List.append_assoc] at h
      have hread := congrArg readChar h
      rw [(readChar_escapeChar hquote c _).1, (readChar_escapeChar hquote d _).1] at hread
      obtain ⟨rfl, hrest⟩ := Prod.mk.inj (Option.some.inj hread)
      obtain ⟨rfl, hends⟩ := ih hrest
      exact ⟨rfl, hends⟩

end

theorem toList_quoted (s : String) : (quoted s).toList =
    enclosingQuote s.toList ::
      (s.toList.flatMap (escapeChar (enclosingQuote s.toList)) ++ [enclosingQuote s.toList]) := by
  rw [quoted, String.toList_ofList, quotedChars, List.cons_append]

theorem opens_quoted (s : String) : ∃ c cs, (quoted s).toList = c :: cs ∧ c ≠ ')' := by
  refine ⟨_, _, toList_quoted s, ?_⟩
  rcases enclosingQuote_cases s.toList with hquote | hquote <;> rw [hquote] <;> decide

/-- Whatever follows it, a quoted text is told from all others and from what follows. The first quote tells
which one encloses the text, and from there each character is read back. -/
theorem selfDelimiting_quoted (s : String) : SelfDelimiting quoted s := by
  intro t rest rest' h
  rw [toList_quoted, toList_quoted, List.cons_append, List.cons_append, List.append_assoc,
    List.append_assoc] at h
  obtain ⟨hquote, htext⟩ := List.cons.inj h
  rw [← hquote] at htext
  obtain ⟨hchars, hrest⟩ := escaped_inj (enclosingQuote_cases s.toList) htext
  exact ⟨String.toList_injective hchars, hrest⟩

/-! ## Sequences -/

/-- What follows the first part of a sequence: the further parts, each after a comma and a space, and the
closing bracket. -/
def furtherParts : List String → List Char
  | [] => [')']
  | part :: parts => ',' :: ' ' :: (part.toList ++ furtherParts parts)

theorem toList_commaSeparated (part : String) (parts : List String) :
    (commaSeparated (part :: parts) ++ ")").toList = part.toList ++ furtherParts parts := by
  induction parts generalizing part with
  | nil =>
    rw [commaSeparated, String.intercalate_singleton, String.toList_append]
    rfl
  | cons next parts ih =>
    have hnext := ih next
    rw [commaSeparated] at hnext ⊢
    rw [String.intercalate_cons_cons, String.append_assoc, String.toList_append, hnext,
      String.toList_append, List.append_assoc]
    rfl

theorem toList_record (name : String) (fields : List (String × String)) :
    ∃ inside, (record name fields).toList = name.toList ++ '(' :: inside := by
  rw [record, String.append_assoc, String.append_assoc, String.toList_append, String.toList_append]
  exact ⟨_, rfl⟩

/-- What is written before the first part of a record. -/
theorem toList_record_append (name label part : String) (fields : List (String × String))
    (rest : List Char) :
    (record name ((label, part) :: fields)).toList ++ rest =
      (name ++ "(" ++ label ++ "=").toList ++ (part.toList ++
        (furtherParts (fields.map fun field => field.1 ++ "=" ++ field.2) ++ rest)) := by
  have hfields := toList_commaSeparated (label ++ "=" ++ part)
    (fields.map fun field => field.1 ++ "=" ++ field.2)
  rw [record, List.map_cons, String.append_assoc, String.toList_append, hfields]
  simp only [String.toList_append, List.append_assoc]

theorem furtherParts_field (label part : String) (rest : List Char) :
    furtherParts [label ++ "=" ++ part] ++ rest =
      (", " ++ label ++ "=").toList ++ (part.toList ++ ')' :: rest) := by
  simp [furtherParts]

section

variable {α : Type} {form : α → String} {as bs : List α} {rest rest' : List Char}

theorem furtherParts_inj (h : ∀ a ∈ as, SelfDelimiting form a)
    (heq : furtherParts (as.map form) ++ rest = furtherParts (bs.map form) ++ rest') :
    as = bs ∧ rest = rest' := by
  induction as generalizing bs with
  | nil =>
    cases bs with
    | nil => exact ⟨rfl, (List.cons.inj heq).2⟩
    | cons b bs => exact absurd (List.cons.inj heq).1 (by decide)
  | cons a as ih =>
    obtain ⟨ha, has⟩ := List.forall_mem_cons.1 h
    cases bs with
    | nil => exact absurd (List.cons.inj heq).1 (by decide)
    | cons b bs =>
      simp only [List.map_cons, furtherParts, List.cons_append, List.append_assoc, List.cons.injEq,
        true_and] at heq
      obtain ⟨rfl, htail⟩ := ha _ _ _ heq
      obtain ⟨rfl, hrest⟩ := ih has htail
      exact ⟨rfl, hrest⟩

/-- What follows the first part of a tuple, which has a comma even if there is no other part. -/
def tupleTail : List String → List Char
  | [] => [',', ')']
  | part :: parts => furtherParts (part :: parts)

theorem toList_tupled_nil : (tupled []).toList = ['(', ')'] := rfl

theorem toList_tupled_cons (part : String) (parts : List String) :
    (tupled (part :: parts)).toList = '(' :: (part.toList ++ tupleTail parts) := by
  cases parts with
  | nil =>
    rw [tupled, String.toList_append, String.toList_append, List.append_assoc]
    rfl
  | cons next parts =>
    show ("(" ++ commaSeparated (part :: next :: parts) ++ ")").toList = _
    rw [String.append_assoc, String.toList_append, toList_commaSeparated]
    rfl

theorem tupleTail_inj (h : ∀ a ∈ as, SelfDelimiting form a)
    (heq : tupleTail (as.map form) ++ rest = tupleTail (bs.map form) ++ rest') :
    as = bs ∧ rest = rest' := by
  -- After the comma a single part is followed by the bracket, and others by a space.
  cases as with
  | nil =>
    cases bs with
    | nil => exact ⟨rfl, List.append_cancel_left heq⟩
    | cons b bs => exact absurd (List.cons.inj (List.cons.inj heq).2).1 (by decide)
  | cons a as =>
    cases bs with
    | nil => exact absurd (List.cons.inj (List.cons.inj heq).2).1 (by decide)
    | cons b bs => exact furtherParts_inj h heq

/-- A tuple shows where it ends if its parts do and none of them can begin with the closing bracket. -/
theorem SelfDelimiting.tupled (hopens : ∀ a, ∃ c cs, (form a).toList = c :: cs ∧ c ≠ ')')
    (h : ∀ a ∈ as, SelfDelimiting form a) :
    SelfDelimiting (fun parts => Text.tupled (parts.map form)) as := by
  intro bs rest rest' heq
  dsimp only at heq
  cases as with
  | nil =>
    cases bs with
    | nil => exact ⟨rfl, List.append_cancel_left heq⟩
    | cons b bs =>
      obtain ⟨c, cs, hchars, hne⟩ := hopens b
      rw [List.map_nil, toList_tupled_nil, List.map_cons, toList_tupled_cons, hchars] at heq
      exact absurd (List.cons.inj (List.cons.inj heq).2).1.symm hne
  | cons a as =>
    obtain ⟨ha, has⟩ := List.forall_mem_cons.1 h
    cases bs with
    | nil =>
      obtain ⟨c, cs, hchars, hne⟩ := hopens a
      rw [List.map_nil, toList_tupled_nil, List.map_cons, toList_tupled_cons, hchars] at heq
      exact absurd (List.cons.inj (List.cons.inj heq).2).1 hne
    | cons b bs =>
      simp only [List.map_cons, toList_tupled_cons, List.cons_append, List.append_assoc,
        List.cons.injEq, true_and] at heq
      obtain ⟨rfl, htail⟩ := ha _ _ _ heq
      obtain ⟨rfl, hrest⟩ := tupleTail_inj has htail
      exact ⟨rfl, hrest⟩

theorem SelfDelimiting.record_one {a : α} (h : SelfDelimiting form a) (name label : String) :
    SelfDelimiting (fun a => record name [(label, form a)]) a := by
  intro b rest rest' heq
  rw [toList_record_append, toList_record_append] at heq
  obtain ⟨rfl, hrest⟩ := h _ _ _ (List.append_cancel_left heq)
  exact ⟨rfl, (List.cons.inj hrest).2⟩

theorem SelfDelimiting.record_two {β : Type} {form' : β → String} {a : α} {b : β}
    (ha : SelfDelimiting form a) (hb : SelfDelimiting form' b) (name label label' : String) :
    SelfDelimiting (fun p : α × β => record name [(label, form p.1), (label', form' p.2)]) (a, b) := by
  rintro ⟨c, d⟩ rest rest' heq
  rw [toList_record_append, toList_record_append] at heq
  obtain ⟨rfl, hsecond⟩ := ha _ _ _ (List.append_cancel_left heq)
  rw [List.map_singleton, List.map_singleton, furtherParts_field, furtherParts_field] at hsecond
  obtain ⟨rfl, hrest⟩ := hb _ _ _ (List.append_cancel_left hsecond)
  exact ⟨rfl, (List.cons.inj hrest).2⟩

end

end MiniLisp.Text
