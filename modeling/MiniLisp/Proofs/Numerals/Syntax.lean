import MiniLisp.Proofs.Numerals.Decimal
import MiniLisp.Value.Printer

/-!
The syntax of numerals. A numeral is an optional sign and one or more digits, and spells the number whose
digits these are. Reading accepts exactly the numerals within the limit on digits, and writing is inverse to
it (`Numeral.reading_inverts_writing`).
-/

namespace MiniLisp.Numeral

/-! ## Reading numerals -/

/-- What is read of a numeral depends on how many digits it has. -/
theorem IsNumeral.read {s : String} {sign : Sign} {digits : List Char} (h : IsNumeral s sign digits) :
    Numeral.read s =
      if digits.length ≤ maxDigits then .ok (some (sign.signed (positional (digits.map worth))))
      else .error (.reading digits.length) := by
  unfold Numeral.read
  rw [h.parts?, ← value_eq_signed]

theorem IsNumeral.read_eq_ok {s : String} {sign : Sign} {digits : List Char} (h : IsNumeral s sign digits)
    (hlength : digits.length ≤ maxDigits) :
    Numeral.read s = .ok (some (sign.signed (positional (digits.map worth)))) :=
  h.read.trans (if_pos hlength)

/-- A text is a numeral, or nothing is read of it. -/
theorem isNumeral_or_read_eq_none (s : String) :
    (∃ sign digits, IsNumeral s sign digits) ∨
      ((∀ sign digits, ¬ IsNumeral s sign digits) ∧ read s = .ok none) := by
  cases hparts : parts? s.toList with
  | some parts =>
    obtain ⟨sign, h, -⟩ := exists_isNumeral hparts
    exact .inl ⟨sign, parts.2, h⟩
  | none =>
    refine .inr ⟨fun sign digits h => ?_, ?_⟩
    · rw [h.parts?] at hparts
      cases hparts
    · unfold read
      rw [hparts]

theorem read_eq_some_iff {s : String} {n : Int} :
    read s = .ok (some n) ↔ ∃ sign digits, IsNumeral s sign digits ∧ digits.length ≤ maxDigits ∧
      n = sign.signed (positional (digits.map worth)) := by
  constructor
  · intro h
    rcases isNumeral_or_read_eq_none s with ⟨sign, digits, hs⟩ | ⟨-, hnone⟩
    · rw [hs.read] at h
      split at h
      · next hlength =>
        cases h
        exact ⟨sign, digits, hs, hlength, rfl⟩
      · cases h
    · rw [hnone] at h
      cases h
  · rintro ⟨sign, digits, hs, hlength, rfl⟩
    exact hs.read_eq_ok hlength

theorem read_eq_error_iff {s : String} {limit : DigitLimit} :
    read s = .error limit ↔ ∃ sign digits, IsNumeral s sign digits ∧ maxDigits < digits.length ∧
      limit = .reading digits.length := by
  constructor
  · intro h
    rcases isNumeral_or_read_eq_none s with ⟨sign, digits, hs⟩ | ⟨-, hnone⟩
    · rw [hs.read] at h
      split at h
      · cases h
      · next hlength =>
        cases h
        exact ⟨sign, digits, hs, Nat.lt_of_not_le hlength, rfl⟩
    · rw [hnone] at h
      cases h
  · rintro ⟨sign, digits, hs, hlength, rfl⟩
    rw [hs.read, if_neg (Nat.not_le_of_lt hlength)]

theorem read_eq_none_iff {s : String} :
    read s = .ok none ↔ ∀ sign digits, ¬ IsNumeral s sign digits := by
  constructor
  · intro h sign digits hs
    rw [hs.read] at h
    split at h <;> cases h
  · intro h
    rcases isNumeral_or_read_eq_none s with ⟨sign, digits, hs⟩ | ⟨-, hnone⟩
    · exact absurd hs (h sign digits)
    · exact hnone

/-! ## Texts of integers -/

/-- The numeral with zeros between its sign and its digits. -/
def zeroFilled (sign : Sign) (zeros : Nat) (digits : List Char) : String :=
  String.ofList (sign.chars ++ (List.replicate zeros '0' ++ digits))

theorem isNumeral_zeroFilled (sign : Sign) (zeros : Nat) {digits : List Char} (hne : digits ≠ [])
    (h : ∀ c ∈ digits, c.isDigit = true) :
    IsNumeral (zeroFilled sign zeros digits) sign (List.replicate zeros '0' ++ digits) := by
  refine ⟨String.toList_ofList, ?_, fun c hc => ?_⟩
  · simp [hne]
  · rcases List.mem_append.1 hc with hzero | hdigit
    · rw [(List.mem_replicate.1 hzero).2]
      decide
    · exact h c hdigit

/-- Any sign that an integer can have and any zeros before its digits are read as the integer, if there are
no more digits than are read. -/
theorem read_zeroFilled {sign : Sign} {n : Int} (hsign : sign.signed n.natAbs = n) {zeros : Nat}
    (hlength : zeros + (Nat.toDigits 10 n.natAbs).length ≤ maxDigits) :
    read (zeroFilled sign zeros (Nat.toDigits 10 n.natAbs)) = .ok (some n) := by
  have hnumeral := isNumeral_zeroFilled sign zeros (Nat.toDigits_ne_nil (b := 10) (n := n.natAbs))
    fun c hc => isDigit_toDigits hc
  have hworth : worth '0' = 0 := by decide
  rw [hnumeral.read_eq_ok (by simpa using hlength), List.map_append, List.map_replicate, hworth,
    positional_zeros, positional_toDigits, hsign]

/-- After a plus sign the text of an integer is a numeral with no zeros in front of its digits. -/
theorem plus_text {n : Int} (h : 0 ≤ n) :
    "+" ++ text n = zeroFilled .plus 0 (Nat.toDigits 10 n.natAbs) := by
  have hdigits : (text n).toList = Nat.toDigits 10 n.natAbs := by
    rw [toList_text, if_neg (by omega)]
  apply String.toList_injective
  rw [String.toList_append, hdigits, zeroFilled, String.toList_ofList, String.toList_ofList]
  rfl

theorem source_int_of_lt {n : Int} (h : n.natAbs < bound) : (Value.int n).source = .ok (text n) := by
  rw [Value.source, write, if_pos h]

theorem source_int_of_le {n : Int} (h : bound ≤ n.natAbs) :
    (Value.int n).source = .error .writing := by
  rw [Value.source, write, if_neg (Nat.not_lt_of_le h)]

theorem natAbs_lt_bound_of_read {s : String} {n : Int} (h : read s = .ok (some n)) : n.natAbs < bound := by
  obtain ⟨sign, digits, hs, hlength, rfl⟩ := read_eq_some_iff.1 h
  rw [← value_eq_signed]
  unfold bound
  exact natAbs_value_lt hs.isDigit hlength _

theorem text_injective {m n : Int} (h : text m = text n) : m = n := by
  have hread := integer?_text m
  rw [h, integer?_text] at hread
  exact (Option.some.inj hread).symm

/-! ## Texts that are no numerals -/

theorem not_isNumeral_of_mem {s : String} {c : Char} (hc : c ∈ s.toList) (hdigit : c.isDigit = false)
    (hplus : c ≠ '+') (hminus : c ≠ '-') (sign : Sign) (digits : List Char) :
    ¬ IsNumeral s sign digits := by
  intro h
  rw [h.toList_eq] at hc
  rcases List.mem_append.1 hc with hsign | hdigits
  · exact (Sign.eq_of_mem_chars hsign).elim hplus hminus
  · rw [h.isDigit c hdigits] at hdigit
    cases hdigit

theorem not_isNumeral_chars (lone sign : Sign) (digits : List Char) :
    ¬ IsNumeral (String.ofList lone.chars) sign digits := by
  intro h
  have hparts := h.parts?
  rw [String.toList_ofList] at hparts
  cases lone <;> cases hparts

/-- Reading numerals and writing integers are inverse within the limit on digits. An integer is read of a text
exactly if that is an optional sign and one or more digits, no more than the limit, and it is the number that
they spell by their places; a numeral of more digits is refused, and nothing is read of any other text, such
as one with another character or without a digit. The text of an integer below the limit is read back, also
after a plus sign and with zeros in front of its digits, and other integers have no text. Two numerals within
the limit are printed alike exactly if they spell the same integer. -/
theorem reading_inverts_writing :
    (∀ s n, read s = .ok (some n) ↔ ∃ sign digits, IsNumeral s sign digits ∧
      digits.length ≤ maxDigits ∧ n = sign.signed (positional (digits.map worth))) ∧
    (∀ s limit, read s = .error limit ↔ ∃ sign digits, IsNumeral s sign digits ∧
      maxDigits < digits.length ∧ limit = .reading digits.length) ∧
    (∀ s, read s = .ok none ↔ ∀ sign digits, ¬ IsNumeral s sign digits) ∧
    (∀ s, (∃ c ∈ s.toList, c.isDigit = false ∧ c ≠ '+' ∧ c ≠ '-') → read s = .ok none) ∧
    (∀ lone : Sign, read (String.ofList lone.chars) = .ok none) ∧
    (∀ n : Int, n.natAbs < bound → ∃ printed sign digits,
      (Value.int n).source = .ok printed ∧ IsNumeral printed sign digits ∧
      read printed = .ok (some n) ∧ (0 ≤ n → read ("+" ++ printed) = .ok (some n)) ∧
      ∀ other zeros, other.signed n.natAbs = n → zeros + digits.length ≤ maxDigits →
        read (zeroFilled other zeros digits) = .ok (some n)) ∧
    (∀ n : Int, bound ≤ n.natAbs → (Value.int n).source = .error .writing) ∧
    ∀ s t m n, read s = .ok (some m) → read t = .ok (some n) → ∃ printed printed',
      (Value.int m).source = .ok printed ∧ (Value.int n).source = .ok printed' ∧
        (printed = printed' ↔ m = n) := by
  refine ⟨fun s n => read_eq_some_iff, fun s limit => read_eq_error_iff, fun s => read_eq_none_iff,
    fun s h => ?_, fun lone => read_eq_none_iff.2 (not_isNumeral_chars lone), fun n h => ?_,
    fun n h => source_int_of_le h, fun s t m n hs ht => ?_⟩
  · obtain ⟨c, hc, hdigit, hplus, hminus⟩ := h
    exact read_eq_none_iff.2 (not_isNumeral_of_mem hc hdigit hplus hminus)
  · refine ⟨text n, .ofInt n, Nat.toDigits 10 n.natAbs, source_int_of_lt h, isNumeral_text n, read_text h,
      fun hpos => ?_, fun other zeros hsign hlength => read_zeroFilled hsign hlength⟩
    have hlength := length_toDigits_of_lt_bound h
    have hsign : Sign.plus.signed n.natAbs = n := by
      show (n.natAbs : Int) = n
      omega
    rw [plus_text hpos]
    exact read_zeroFilled hsign (by omega)
  · refine ⟨text m, text n, source_int_of_lt (natAbs_lt_bound_of_read hs),
      source_int_of_lt (natAbs_lt_bound_of_read ht), fun h => text_injective h, fun h => ?_⟩
    rw [h]

/-- The last zero that fits before the digit of minus seven, one more, the least integer without a text, and a
numeral with a line break after it. -/
theorem numerals_around_the_limit :
    (-7 : Int).natAbs < bound ∧ read (zeroFilled .minus 4299 ['7']) = .ok (some (-7)) ∧
      IsNumeral (zeroFilled .minus 4300 ['7']) .minus (List.replicate 4300 '0' ++ ['7']) ∧
      read (zeroFilled .minus 4300 ['7']) = .error (.reading 4301) ∧
      (Value.int bound).source = .error .writing ∧ read "+7\n" = .ok none := by
  obtain ⟨-, hlong, -, hother, -, hread, hlarge, -⟩ := reading_inverts_writing
  have hseven : (-7 : Int).natAbs < bound := by decide +kernel
  have hlongNumeral : IsNumeral (zeroFilled .minus 4300 ['7']) .minus (List.replicate 4300 '0' ++ ['7']) :=
    isNumeral_zeroFilled .minus 4300 (by decide) (List.forall_mem_singleton.2 (by decide))
  have hlength : (List.replicate 4300 '0' ++ ['7']).length = 4301 := by
    rw [List.length_append, List.length_replicate, List.length_singleton]
  obtain ⟨printed, sign, digits, hprinted, hnumeral, -, -, hfilled⟩ := hread (-7) hseven
  have hdigits : digits = ['7'] := by
    rw [source_int_of_lt hseven] at hprinted
    have hparts := hnumeral.parts?
    rw [← Except.ok.inj hprinted] at hparts
    exact (congrArg Prod.snd (Option.some.inj hparts)).symm
  rw [hdigits] at hfilled
  refine ⟨hseven, hfilled .minus 4299 rfl (by decide), hlongNumeral, ?_, hlarge bound ?_, ?_⟩
  · refine (hlong _ _).2 ⟨.minus, _, hlongNumeral, ?_, ?_⟩
    · rw [hlength]
      decide
    · rw [hlength]
  · rw [Int.natAbs_natCast]
  · exact hother _ ⟨'\n', by decide, by decide, by decide, by decide⟩

end MiniLisp.Numeral
