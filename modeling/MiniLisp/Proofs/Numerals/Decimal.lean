import MiniLisp.Proofs.Numerals.Notation
import MiniLisp.Proofs.Reading.WrittenTokens

/-!
Decimal texts of integers. A numeral is an atom, an integer that can be written is read back from its text
(`Numeral.read_text`), and within the limit on digits a numeral is read as the integer that it spells, which
its canonical form spells as well (`Numeral.read_of_withinLimit`, `Numeral.integer?_canonical`).
-/

namespace MiniLisp

theorem Token.isAtomChar_of_isDigit {c : Char} (h : c.isDigit = true) : isAtomChar c = true := by
  refine Bool.of_not_eq_false fun hother => ?_
  simp only [isAtomChar_eq_false_iff, isBracket, isSpace, Bool.or_eq_true, beq_iff_eq] at hother
  rcases hother with (rfl | rfl) | ((rfl | rfl) | rfl) | rfl <;> exact absurd h (by decide)

namespace Numeral

/-! ## Numerals are atoms -/

theorem Sign.isAtomChar_chars (sign : Sign) : ∀ c ∈ sign.chars, Token.isAtomChar c = true := by
  intro c hc
  rcases Sign.eq_of_mem_chars hc with rfl | rfl <;> decide

theorem IsNumeral.isAtom {s : String} {sign : Sign} {digits : List Char} (h : IsNumeral s sign digits) :
    Token.IsAtom s := by
  obtain ⟨htext, hne, hdigits⟩ := h
  refine ⟨fun hempty => hne ?_, ?_⟩
  · rw [String.toList_eq_nil_iff.2 hempty] at htext
    exact (List.append_eq_nil_iff.1 htext.symm).2
  · rw [htext]
    exact List.forall_mem_append.2
      ⟨sign.isAtomChar_chars, fun c hc => Token.isAtomChar_of_isDigit (hdigits c hc)⟩

theorem isAtom_of_read {s : String} {n : Int} (h : read s = .ok (some n)) : Token.IsAtom s := by
  unfold read at h
  split at h
  · cases h
  · next hparts =>
    obtain ⟨sign, hs, -⟩ := exists_isNumeral hparts
    exact hs.isAtom

/-! ## Texts of integers -/

theorem toList_natText (n : Nat) : (natText n).toList = Nat.toDigits 10 n := by
  rw [natText, String.toList_ofList]

theorem isDigit_toDigits {n : Nat} {c : Char} (h : c ∈ Nat.toDigits 10 n) : c.isDigit = true :=
  Nat.isDigit_of_mem_toDigits (by decide) (by decide) h

/-- The text of an integer is its digits, after a minus sign if it is negative. -/
theorem toList_text (n : Int) :
    (text n).toList = if n < 0 then '-' :: Nat.toDigits 10 n.natAbs else Nat.toDigits 10 n.natAbs := by
  unfold text
  split
  · rw [String.toList_append, toList_natText]
    rfl
  · rw [toList_natText]

/-- The text of an integer is a numeral with its sign and its digits. -/
theorem isNumeral_text (n : Int) : IsNumeral (text n) (.ofInt n) (Nat.toDigits 10 n.natAbs) := by
  refine ⟨?_, Nat.toDigits_ne_nil, fun c hc => isDigit_toDigits hc⟩
  rw [toList_text, Sign.ofInt]
  split <;> rfl

theorem value_toDigits (n : Int) : value (Sign.ofInt n).isMinus (Nat.toDigits 10 n.natAbs) = n := by
  rw [value_eq_signed, positional_toDigits, Sign.signed_ofInt]

theorem length_toDigits_le_iff {digits : Nat} (h : 0 < digits) (n : Nat) :
    (Nat.toDigits 10 n).length ≤ digits ↔ n < Nat.pow 10 digits :=
  Nat.length_toDigits_le_iff (by decide) h

theorem length_toDigits_of_lt_bound {n : Nat} (h : n < bound) :
    (Nat.toDigits 10 n).length ≤ maxDigits := by
  unfold bound at h
  exact (length_toDigits_le_iff (by decide) n).2 h

/-- An integer that can be written is read back from its text. -/
theorem read_text {n : Int} (h : n.natAbs < bound) : read (text n) = .ok (some n) := by
  rw [read, (isNumeral_text n).parts?]
  dsimp only
  rw [if_pos (length_toDigits_of_lt_bound h), value_toDigits]

/-! ## Canonical texts -/

/-- The integer that a numeral spells, however many digits it has; no integer for any other text. -/
def integer? (s : String) : Option Int :=
  (parts? s.toList).map fun parts => value parts.1 parts.2

/-- The text with a numeral in its canonical form: without a plus sign and leading zeros, and zero
without a sign. -/
def canonical (s : String) : String :=
  match integer? s with
  | some n => text n
  | none => s

/-- A text that is no numeral, or a numeral of no more digits than are read. -/
def WithinLimit (s : String) : Prop :=
  ∀ parts ∈ parts? s.toList, parts.2.length ≤ maxDigits

instance (s : String) : Decidable (WithinLimit s) :=
  inferInstanceAs (Decidable (∀ parts ∈ parts? s.toList, parts.2.length ≤ maxDigits))

theorem integer?_text (n : Int) : integer? (text n) = some n := by
  rw [integer?, (isNumeral_text n).parts?, Option.map_some, value_toDigits]

/-- The canonical form of a numeral spells the same integer. -/
theorem integer?_canonical (s : String) : integer? (canonical s) = integer? s := by
  unfold canonical
  cases h : integer? s with
  | some n => exact integer?_text n
  | none => exact h

theorem canonical_of_integer? {s : String} {n : Int} (h : integer? s = some n) :
    canonical s = text n := by
  rw [canonical, h]

theorem canonical_of_not_integer {s : String} (h : integer? s = none) : canonical s = s := by
  rw [canonical, h]

/-- Within the limit a numeral is read as the integer that it spells. -/
theorem read_of_withinLimit {s : String} (h : WithinLimit s) : read s = .ok (integer? s) := by
  rw [read, integer?]
  cases hparts : parts? s.toList with
  | none => rfl
  | some parts =>
    have hlength : parts.2.length ≤ maxDigits := h parts hparts
    exact if_pos hlength

/-- A number of so many digits is below that power of ten. -/
theorem ofDigitChars_lt {digits : List Char} (h : ∀ c ∈ digits, c.isDigit = true) :
    Nat.ofDigitChars 10 digits 0 < Nat.pow 10 digits.length := by
  induction digits with
  | nil => decide
  | cons c digits ih =>
    obtain ⟨hc, hdigits⟩ := List.forall_mem_cons.1 h
    have hdigit : worth c ≤ 9 := by
      have hnine : c.toNat ≤ '9'.toNat := (Char.isDigit_iff_toNat.1 hc).2
      exact Nat.sub_le_of_le_add hnine
    calc Nat.ofDigitChars 10 (c :: digits) 0
      _ = 10 ^ digits.length * worth c + Nat.ofDigitChars 10 digits 0 :=
        ofDigitChars_first c digits
      _ < 10 ^ digits.length * worth c + 10 ^ digits.length :=
        Nat.add_lt_add_left (ih hdigits) _
      _ = 10 ^ digits.length * (worth c + 1) := (Nat.mul_succ _ _).symm
      _ ≤ 10 ^ digits.length * 10 := Nat.mul_le_mul_left _ (Nat.succ_le_succ hdigit)
      _ = 10 ^ (c :: digits).length := (Nat.pow_succ _ _).symm

theorem natAbs_value (negative : Bool) (digits : List Char) :
    (value negative digits).natAbs = Nat.ofDigitChars 10 digits 0 := by
  cases negative <;> simp [value]

theorem natAbs_value_lt {digits : List Char} (h : ∀ c ∈ digits, c.isDigit = true) {limit : Nat}
    (hlength : digits.length ≤ limit) (negative : Bool) :
    (value negative digits).natAbs < Nat.pow 10 limit := by
  rw [natAbs_value]
  exact Nat.lt_of_lt_of_le (ofDigitChars_lt h) (Nat.pow_le_pow_right (by decide) hlength)

/-- Within the limit a numeral spells an integer that can be written. -/
theorem natAbs_lt_bound {s : String} {n : Int} (h : WithinLimit s) (hn : integer? s = some n) :
    n.natAbs < bound := by
  obtain ⟨parts, hparts, rfl⟩ := Option.map_eq_some_iff.1 hn
  have hlength : parts.2.length ≤ maxDigits := h parts hparts
  obtain ⟨sign, hs, -⟩ := exists_isNumeral hparts
  unfold bound
  exact natAbs_value_lt hs.isDigit hlength parts.1

end Numeral

end MiniLisp
