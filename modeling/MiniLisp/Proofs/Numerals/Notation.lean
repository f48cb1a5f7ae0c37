import Mathlib.Data.Nat.Digits.Defs
import MiniLisp.Numeral

/-!
Decimal notation: signs, the number that a row of digits spells by their places, and numerals, which are an
optional sign and digits. Numerals and settings write integers in this way.
-/

namespace MiniLisp.Numeral

/-! ## Signs -/

/-- What may stand before the digits of an integer. -/
inductive Sign where
  | none
  | plus
  | minus
  deriving DecidableEq, Repr

namespace Sign

/-- The characters of the sign. -/
def chars : Sign → List Char
  | .none => []
  | .plus => ['+']
  | .minus => ['-']

theorem eq_of_mem_chars {sign : Sign} {c : Char} (h : c ∈ sign.chars) : c = '+' ∨ c = '-' := by
  cases sign with
  | none => cases h
  | plus => exact .inl (List.mem_singleton.1 h)
  | minus => exact .inr (List.mem_singleton.1 h)

/-- The integer with that sign and magnitude. -/
def signed : Sign → Nat → Int
  | .minus, n => -n
  | _, n => n

/-- Whether the sign is a minus. -/
def isMinus : Sign → Bool
  | .minus => true
  | _ => false

theorem signed_eq (sign : Sign) (n : Nat) :
    sign.signed n = if sign.isMinus then -(n : Int) else n := by
  cases sign <;> rfl

/-- The sign with which an integer is written. -/
def ofInt (n : Int) : Sign :=
  if n < 0 then .minus else .none

theorem signed_ofInt (n : Int) : (ofInt n).signed n.natAbs = n := by
  unfold ofInt
  split
  · show -(n.natAbs : Int) = n
    omega
  · show (n.natAbs : Int) = n
    omega

end Sign

theorem splitSign_chars (sign : Sign) {c : Char} (hplus : c ≠ '+') (hminus : c ≠ '-') (cs : List Char) :
    splitSign (sign.chars ++ c :: cs) = (sign.isMinus, c :: cs) := by
  cases sign with
  | plus | minus => rfl
  | none =>
    show splitSign (c :: cs) = (false, c :: cs)
    unfold splitSign
    split
    · next h => exact absurd (List.cons.inj h).1 hminus
    · next h => exact absurd (List.cons.inj h).1 hplus
    · rfl

theorem exists_sign (cs : List Char) :
    ∃ sign : Sign, cs = sign.chars ++ (splitSign cs).2 ∧ (splitSign cs).1 = sign.isMinus := by
  unfold splitSign
  split
  · exact ⟨.minus, rfl, rfl⟩
  · exact ⟨.plus, rfl, rfl⟩
  · exact ⟨.none, rfl, rfl⟩

/-! ## Digits -/

/-- The number that has these decimal digits, the most significant one first. -/
def positional (digits : List Nat) : Nat :=
  Nat.ofDigits 10 digits.reverse

theorem positional_cons (digit : Nat) (digits : List Nat) :
    positional (digit :: digits) = 10 ^ digits.length * digit + positional digits := by
  unfold positional
  rw [List.reverse_cons, Nat.ofDigits_append, Nat.ofDigits_singleton, List.length_reverse, Nat.add_comm]

theorem positional_zeros (zeros : Nat) (digits : List Nat) :
    positional (List.replicate zeros 0 ++ digits) = positional digits := by
  induction zeros with
  | zero => rfl
  | succ zeros ih =>
    rw [List.replicate_succ, List.cons_append, positional_cons, ih, Nat.mul_zero, Nat.zero_add]

/-- What a digit is worth. -/
def worth (c : Char) : Nat :=
  c.toNat - '0'.toNat

/-- The first digit counts as many times as there are numbers of the other digits. -/
theorem ofDigitChars_first (c : Char) (digits : List Char) :
    Nat.ofDigitChars 10 (c :: digits) 0 =
      10 ^ digits.length * worth c + Nat.ofDigitChars 10 digits 0 := by
  rw [Nat.ofDigitChars_cons, Nat.ofDigitChars_eq_ofDigitChars_zero, Nat.mul_zero, Nat.zero_add, worth]

theorem ofDigitChars_eq_positional (digits : List Char) :
    Nat.ofDigitChars 10 digits 0 = positional (digits.map worth) := by
  induction digits with
  | nil => rfl
  | cons c digits ih =>
    rw [ofDigitChars_first, ih, List.map_cons, positional_cons, List.length_map]

theorem positional_toDigits (n : Nat) : positional ((Nat.toDigits 10 n).map worth) = n := by
  rw [← ofDigitChars_eq_positional, Nat.ofDigitChars_ten_toDigits]

theorem value_eq_signed (sign : Sign) (digits : List Char) :
    value sign.isMinus digits = sign.signed (positional (digits.map worth)) := by
  rw [value, ofDigitChars_eq_positional, Sign.signed_eq]

/-! ## Numerals -/

/-- The text is that sign followed by these digits, of which there is at least one. -/
structure IsNumeral (s : String) (sign : Sign) (digits : List Char) : Prop where
  toList_eq : s.toList = sign.chars ++ digits
  ne_nil : digits ≠ []
  isDigit : ∀ c ∈ digits, c.isDigit = true

theorem not_sign_of_isDigit {c : Char} (h : c.isDigit = true) : c ≠ '+' ∧ c ≠ '-' := by
  constructor
  · rintro rfl
    exact absurd h (by decide)
  · rintro rfl
    exact absurd h (by decide)

/-- The digits of a numeral are taken apart from its sign, since the first of them is none. -/
theorem IsNumeral.parts? {s : String} {sign : Sign} {digits : List Char} (h : IsNumeral s sign digits) :
    Numeral.parts? s.toList = some (sign.isMinus, digits) := by
  obtain ⟨htext, hne, hdigits⟩ := h
  have hsplit : splitSign s.toList = (sign.isMinus, digits) := by
    cases digits with
    | nil => exact absurd rfl hne
    | cons c cs =>
      obtain ⟨hplus, hminus⟩ := not_sign_of_isDigit (hdigits c List.mem_cons_self)
      rw [htext, splitSign_chars sign hplus hminus]
  unfold Numeral.parts?
  rw [hsplit]
  exact if_pos ⟨hne, List.all_eq_true.2 hdigits⟩

theorem exists_isNumeral {s : String} {negative : Bool} {digits : List Char}
    (h : parts? s.toList = some (negative, digits)) :
    ∃ sign, IsNumeral s sign digits ∧ negative = sign.isMinus := by
  obtain ⟨sign, htext, hsign⟩ := exists_sign s.toList
  unfold parts? at h
  dsimp only at h
  split at h
  · next hparts =>
    cases h
    exact ⟨sign, ⟨htext, hparts.1, List.all_eq_true.1 hparts.2⟩, hsign⟩
  · cases h

end MiniLisp.Numeral
