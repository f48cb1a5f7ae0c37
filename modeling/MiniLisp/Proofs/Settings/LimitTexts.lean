import Mathlib.Data.List.DropRight
import MiniLisp.Interpreter
import MiniLisp.Proofs.Numerals.Syntax
import MiniLisp.Settings

/-!
The texts that set a recursion limit. Between margins such a text is an optional sign and groups of decimal
digits of any script, with single underscores between the groups. Reading accepts exactly these texts
(`Settings.integer?_eq_some_iff`), and all others stand for the default limit.
-/

namespace MiniLisp

open Numeral (Sign positional worth)

/-! ## Decimal digits of all scripts -/

namespace Text

theorem exists_script {c : Char} {d : Nat} (h : decimalDigit? c = some d) :
    ∃ first ∈ zeroDigits, first ≤ c.toNat ∧ c.toNat < first + 10 := by
  obtain ⟨first, hfind, -⟩ := Option.map_eq_some_iff.1 h
  have hrange := List.find?_some hfind
  rw [Bool.and_eq_true, decide_eq_true_eq, decide_eq_true_eq] at hrange
  exact ⟨first, List.mem_of_find?_eq_some hfind, hrange⟩

theorem decimalDigit?_of_isDigit {c : Char} (h : c.isDigit = true) :
    decimalDigit? c = some (worth c) := by
  have hbounds : 0x30 ≤ c.toNat ∧ c.toNat ≤ 0x39 := Char.isDigit_iff_toNat.1 h
  have hrange : (decide (0x30 ≤ c.toNat) && decide (c.toNat < 0x30 + 10)) = true := by
    rw [Bool.and_eq_true, decide_eq_true_eq, decide_eq_true_eq]
    omega
  have hfind : zeroDigits.find? (fun z => decide (z ≤ c.toNat) && decide (c.toNat < z + 10)) =
      some 0x30 := by
    have hfirst : zeroDigits = 0x30 :: zeroDigits.tail := rfl
    rw [hfirst]
    exact List.find?_cons_of_pos hrange
  rw [decimalDigit?, hfind]
  rfl

end Text

namespace Settings

/-! ## Margins -/

theorem isMargin_of_decimalDigit? {c : Char} {d : Nat} (h : Text.decimalDigit? c = some d) :
    isMargin c = false := by
  have hdisjoint : ∀ first ∈ Text.zeroDigits, ∀ range ∈ Text.blankRanges,
      first + 10 ≤ range.1 ∨ range.2 < first := by decide +kernel
  obtain ⟨first, hscript, hlow, hhigh⟩ := Text.exists_script h
  refine Bool.eq_false_of_not_eq_true fun hmargin => ?_
  obtain ⟨range, hrange, hfrom, hto⟩ :=
    (Text.inRanges_iff _ c).1 (Bool.and_eq_true_iff.1 hmargin).1
  have hapart := hdisjoint first hscript range hrange
  omega

theorem isMargin_sign (sign : Sign) : ∀ c ∈ sign.chars, isMargin c = false := by
  intro c hc
  rcases Sign.eq_of_mem_chars hc with rfl | rfl <;> decide

/-- Trimming takes the margins off that surround a text without any margin characters. -/
theorem trim_eq {before cs after : List Char} (hbefore : ∀ c ∈ before, isMargin c = true)
    (hafter : ∀ c ∈ after, isMargin c = true) (h : ∀ c ∈ cs, isMargin c = false) :
    trim (before ++ cs ++ after) = cs := by
  have hnil : after.dropWhile isMargin = [] := List.dropWhile_eq_nil_iff.2 hafter
  unfold trim
  rw [List.append_assoc, List.dropWhile_append_of_pos hbefore]
  cases cs with
  | nil =>
    rw [List.nil_append, hnil]
    rfl
  | cons c cs =>
    -- From either end the margin is dropped up to the text and no further.
    have hself : (c :: cs).reverse.dropWhile isMargin = (c :: cs).reverse := by
      refine List.dropWhile_eq_self_iff.2 fun hlength => ?_
      rw [h _ (List.mem_reverse.1 (List.getElem_mem hlength))]
      exact Bool.false_ne_true
    rw [List.cons_append, List.dropWhile_cons_of_neg (by simp [h c List.mem_cons_self]),
      ← List.cons_append, List.reverse_append,
      List.dropWhile_append_of_pos fun x hx => hafter x (List.mem_reverse.1 hx), hself,
      List.reverse_reverse]

theorem exists_margins (cs : List Char) :
    ∃ before after, cs = before ++ trim cs ++ after ∧ ∀ c ∈ before ++ after, isMargin c = true := by
  refine ⟨cs.takeWhile isMargin, (cs.dropWhile isMargin).rtakeWhile isMargin, ?_, fun c hc => ?_⟩
  · have htrim : trim cs = (cs.dropWhile isMargin).rdropWhile isMargin := rfl
    rw [htrim, List.append_assoc, List.rdropWhile_append_rtakeWhile, List.takeWhile_append_dropWhile]
  · rcases List.mem_append.1 hc with hbefore | hafter
    · exact List.mem_takeWhile_imp hbefore
    · exact List.mem_rtakeWhile_imp hafter

/-! ## Groups of digits -/

/-- The text consists of groups of decimal digits, with one underscore between neighbours, and these digits
are worth so much. -/
def IsGrouped (cs : List Char) (digits : List Nat) : Prop :=
  ∃ groups : List (List Char), groups ≠ [] ∧ (∀ group ∈ groups, group ≠ []) ∧
    cs = ['_'].intercalate groups ∧ groups.flatten.map Text.decimalDigit? = digits.map some

section

variable {c : Char} {d : Nat} {cs : List Char} {digits : List Nat}

theorem IsGrouped.single (hc : Text.decimalDigit? c = some d) : IsGrouped [c] [d] :=
  ⟨[[c]], by simp, by simp, rfl, by simp [hc]⟩

theorem IsGrouped.cons (hc : Text.decimalDigit? c = some d) (h : IsGrouped cs digits) :
    IsGrouped (c :: cs) (d :: digits) := by
  obtain ⟨groups, hne, hgroups, rfl, hdigits⟩ := h
  cases groups with
  | nil => exact absurd rfl hne
  | cons group groups =>
    -- The digit becomes the first one of the first group.
    refine ⟨(c :: group) :: groups, by simp, ?_, ?_, ?_⟩
    · exact List.forall_mem_cons.2 ⟨by simp, (List.forall_mem_cons.1 hgroups).2⟩
    · cases groups with
      | nil => rfl
      | cons next groups => rfl
    · rw [List.flatten_cons, List.cons_append, List.map_cons, hc, ← List.flatten_cons, hdigits,
        List.map_cons]

theorem IsGrouped.underscore (hc : Text.decimalDigit? c = some d) (h : IsGrouped cs digits) :
    IsGrouped (c :: '_' :: cs) (d :: digits) := by
  obtain ⟨groups, hne, hgroups, rfl, hdigits⟩ := h
  cases groups with
  | nil => exact absurd rfl hne
  | cons group groups =>
    refine ⟨[c] :: group :: groups, by simp, ?_, ?_, ?_⟩
    · exact List.forall_mem_cons.2 ⟨by simp, hgroups⟩
    · rw [List.intercalate_cons_cons]
      rfl
    · rw [List.flatten_cons, List.singleton_append, List.map_cons, hc, hdigits, List.map_cons]

theorem isGrouped_of_groupedDigits? (h : groupedDigits? cs = some digits) : IsGrouped cs digits := by
  fun_induction groupedDigits? cs generalizing digits with
  | case1 => cases h
  | case2 c =>
    obtain ⟨d, hc, rfl⟩ := Option.map_eq_some_iff.1 h
    exact .single hc
  | case3 c rest ih =>
    obtain ⟨d, hc, h⟩ := Option.bind_eq_some_iff.1 h
    obtain ⟨ds, hrest, h⟩ := Option.bind_eq_some_iff.1 h
    cases h
    exact .underscore hc (ih hrest)
  | case4 c rest _ _ ih =>
    obtain ⟨d, hc, h⟩ := Option.bind_eq_some_iff.1 h
    obtain ⟨ds, hrest, h⟩ := Option.bind_eq_some_iff.1 h
    cases h
    exact .cons hc (ih hrest)

theorem exists_digit_of_groupedDigits? (h : groupedDigits? (c :: cs) = some digits) :
    ∃ d, Text.decimalDigit? c = some d := by
  -- A digit comes first in each of the forms that are read.
  generalize hwhole : c :: cs = whole at h
  fun_induction groupedDigits? whole generalizing digits with
  | case1 => cases hwhole
  | case2 =>
    cases hwhole
    obtain ⟨d, hc, -⟩ := Option.map_eq_some_iff.1 h
    exact ⟨d, hc⟩
  | case3 | case4 =>
    cases hwhole
    obtain ⟨d, hc, -⟩ := Option.bind_eq_some_iff.1 h
    exact ⟨d, hc⟩

theorem groupedDigits?_underscore (hc : Text.decimalDigit? c = some d)
    (h : groupedDigits? cs = some digits) : groupedDigits? (c :: '_' :: cs) = some (d :: digits) := by
  rw [groupedDigits?, hc, h]
  rfl

/-- What is read as digits is not empty and begins with a digit, so another one may go in front. -/
theorem groupedDigits?_cons (hc : Text.decimalDigit? c = some d)
    (h : groupedDigits? cs = some digits) : groupedDigits? (c :: cs) = some (d :: digits) := by
  cases cs with
  | nil => cases h
  | cons first cs =>
    have hfirst : first ≠ '_' := by
      obtain ⟨d, hd⟩ := exists_digit_of_groupedDigits? h
      have hunderscore : Text.decimalDigit? '_' = none := by decide +kernel
      rintro rfl
      rw [hunderscore] at hd
      cases hd
    rw [groupedDigits?, hc, h]
    · rfl
    · exact fun hnil => List.cons_ne_nil _ _ hnil
    · exact fun rest heq => hfirst (List.cons.inj heq).1

/-- One group, followed by nothing or by an underscore and further groups. -/
theorem groupedDigits?_group {group : List Char} (hne : group ≠ []) {digits : List Nat}
    (h : group.map Text.decimalDigit? = digits.map some) :
    groupedDigits? group = some digits ∧ ∀ rest others, groupedDigits? rest = some others →
      groupedDigits? (group ++ '_' :: rest) = some (digits ++ others) := by
  induction group generalizing digits with
  | nil => exact absurd rfl hne
  | cons c group ih =>
    cases digits with
    | nil => cases h
    | cons d digits =>
      obtain ⟨hc, hgroup⟩ := List.cons.inj h
      cases group with
      | nil =>
        cases digits with
        | cons => cases hgroup
        | nil =>
          refine ⟨?_, fun rest others hrest => groupedDigits?_underscore hc hrest⟩
          rw [groupedDigits?, hc]
          rfl
      | cons first group =>
        obtain ⟨halone, hfollowed⟩ := ih (by simp) hgroup
        exact ⟨groupedDigits?_cons hc halone,
          fun rest others hrest => groupedDigits?_cons hc (hfollowed rest others hrest)⟩

theorem groupedDigits?_intercalate {groups : List (List Char)} (hne : groups ≠ [])
    (hgroups : ∀ group ∈ groups, group ≠ []) {digits : List Nat}
    (h : groups.flatten.map Text.decimalDigit? = digits.map some) :
    groupedDigits? (['_'].intercalate groups) = some digits := by
  induction groups generalizing digits with
  | nil => exact absurd rfl hne
  | cons group groups ih =>
    obtain ⟨hgroup, hothers⟩ := List.forall_mem_cons.1 hgroups
    rw [List.flatten_cons, List.map_append] at h
    -- The digits are divided as the groups are.
    obtain ⟨ds, others, rfl, hds, hrest⟩ := List.map_eq_append_iff.1 h.symm
    obtain ⟨halone, hfollowed⟩ := groupedDigits?_group hgroup hds.symm
    cases groups with
    | nil =>
      rw [List.map_eq_nil_iff.1 hrest, List.append_nil, List.intercalate_singleton]
      exact halone
    | cons next groups =>
      rw [List.intercalate_cons_cons, List.append_assoc]
      exact hfollowed _ _ (ih (by simp) hothers hrest.symm)

theorem groupedDigits?_eq_some_iff : groupedDigits? cs = some digits ↔ IsGrouped cs digits := by
  constructor
  · exact isGrouped_of_groupedDigits?
  · rintro ⟨groups, hne, hgroups, rfl, hdigits⟩
    exact groupedDigits?_intercalate hne hgroups hdigits

theorem isMargin_of_groupedDigits? (h : groupedDigits? cs = some digits) :
    ∀ c ∈ cs, isMargin c = false := by
  fun_induction groupedDigits? cs generalizing digits with
  | case1 => cases h
  | case2 c =>
    obtain ⟨d, hc, -⟩ := Option.map_eq_some_iff.1 h
    exact List.forall_mem_singleton.2 (isMargin_of_decimalDigit? hc)
  | case3 c rest ih =>
    obtain ⟨d, hc, h⟩ := Option.bind_eq_some_iff.1 h
    obtain ⟨ds, hrest, -⟩ := Option.bind_eq_some_iff.1 h
    have hunderscore : isMargin '_' = false := by decide +kernel
    exact List.forall_mem_cons.2 ⟨isMargin_of_decimalDigit? hc,
      List.forall_mem_cons.2 ⟨hunderscore, ih hrest⟩⟩
  | case4 c rest _ _ ih =>
    obtain ⟨d, hc, h⟩ := Option.bind_eq_some_iff.1 h
    obtain ⟨ds, hrest, -⟩ := Option.bind_eq_some_iff.1 h
    exact List.forall_mem_cons.2 ⟨isMargin_of_decimalDigit? hc, ih hrest⟩

end

/-! ## Integers -/

theorem ofDigits_eq_positional (digits : List Nat) : ofDigits digits = positional digits := by
  rw [positional, Nat.ofDigits_eq_foldr, List.foldr_reverse, ofDigits]
  exact List.foldl_ext _ _ 0 fun n digit _ => Nat.add_comm (10 * n) digit

/-- Between margins the text is an optional sign and groups of digits, no more than are read of a numeral,
and it is the integer that they spell by their places. -/
def SpellsInteger (cs : List Char) (n : Int) : Prop :=
  ∃ before after sign body digits, cs = before ++ (Sign.chars sign ++ body) ++ after ∧
    (∀ c ∈ before ++ after, isMargin c = true) ∧ IsGrouped body digits ∧
    digits.length ≤ Numeral.maxDigits ∧ n = sign.signed (positional digits)

/-- Groups of digits begin with a digit, which is no sign. -/
theorem splitSign_grouped (sign : Sign) {body : List Char} {digits : List Nat}
    (h : groupedDigits? body = some digits) :
    Numeral.splitSign (sign.chars ++ body) = (sign.isMinus, body) := by
  cases body with
  | nil => cases h
  | cons c cs =>
    obtain ⟨d, hc⟩ := exists_digit_of_groupedDigits? h
    have hsigns : Text.decimalDigit? '+' = none ∧ Text.decimalDigit? '-' = none := by decide +kernel
    refine Numeral.splitSign_chars sign ?_ ?_ cs
    · rintro rfl
      rw [hsigns.1] at hc
      cases hc
    · rintro rfl
      rw [hsigns.2] at hc
      cases hc

theorem integer?_of_splitSign {cs body : List Char} {sign : Sign}
    (h : Numeral.splitSign (trim cs) = (sign.isMinus, body)) :
    integer? cs = (groupedDigits? body).bind fun digits =>
      if digits.length ≤ Numeral.maxDigits then some (sign.signed (positional digits)) else none := by
  unfold integer?
  rw [h]
  simp only [ofDigits_eq_positional, Sign.signed_eq]
  rfl

theorem integer?_eq_some_iff {cs : List Char} {n : Int} :
    integer? cs = some n ↔ SpellsInteger cs n := by
  constructor
  · intro h
    obtain ⟨before, after, hcs, hmargins⟩ := exists_margins cs
    obtain ⟨sign, htrim, hsign⟩ := Numeral.exists_sign (trim cs)
    rw [integer?_of_splitSign (Prod.ext hsign rfl)] at h
    obtain ⟨digits, hbody, h⟩ := Option.bind_eq_some_iff.1 h
    split at h
    · next hlength =>
      cases h
      exact ⟨before, after, sign, _, digits, htrim ▸ hcs, hmargins, isGrouped_of_groupedDigits? hbody,
        hlength, rfl⟩
    · cases h
  · rintro ⟨before, after, sign, body, digits, rfl, hmargins, hgrouped, hlength, rfl⟩
    obtain ⟨hbefore, hafter⟩ := List.forall_mem_append.1 hmargins
    have hbody := groupedDigits?_eq_some_iff.2 hgrouped
    have htrim : trim (before ++ (sign.chars ++ body) ++ after) = sign.chars ++ body :=
      trim_eq hbefore hafter
        (List.forall_mem_append.2 ⟨isMargin_sign sign, isMargin_of_groupedDigits? hbody⟩)
    rw [integer?_of_splitSign (htrim ▸ splitSign_grouped sign hbody), hbody, Option.bind_some,
      if_pos hlength]

/-! ## Recursion limits -/

theorem recursionLimit_of_spells {text : String} {n : Nat} (hpos : 0 < n)
    (h : SpellsInteger text.toList n) : recursionLimit (some text) = n := by
  rw [recursionLimit, integer?_eq_some_iff.2 h]
  show (if 0 < (n : Int) then (n : Int).toNat else defaultLimit) = n
  rw [if_pos (by omega), Int.toNat_natCast]

theorem recursionLimit_of_other {text : String}
    (h : ∀ n : Nat, 0 < n → ¬ SpellsInteger text.toList n) : recursionLimit (some text) = defaultLimit := by
  rw [recursionLimit]
  cases hread : integer? text.toList with
  | none => rfl
  | some n =>
    show (if 0 < n then n.toNat else defaultLimit) = defaultLimit
    refine if_neg fun hpos => h n.toNat (by omega) ?_
    rw [Int.toNat_of_nonneg (by omega)]
    exact integer?_eq_some_iff.1 hread

/-- A text sets the positive integer that it spells, and the default limit if it spells none. -/
theorem recursionLimit_eq_iff (text : String) (n : Nat) : recursionLimit (some text) = n ↔
    (0 < n ∧ SpellsInteger text.toList n) ∨
      ((∀ m : Nat, 0 < m → ¬ SpellsInteger text.toList m) ∧ n = defaultLimit) := by
  by_cases hspells : ∃ m : Nat, 0 < m ∧ SpellsInteger text.toList m
  · obtain ⟨m, hm, hspelled⟩ := hspells
    rw [recursionLimit_of_spells hm hspelled]
    constructor
    · rintro rfl
      exact .inl ⟨hm, hspelled⟩
    · rintro (⟨hn, hother⟩ | ⟨hnone, -⟩)
      · rw [← recursionLimit_of_spells hm hspelled, recursionLimit_of_spells hn hother]
      · exact absurd hspelled (hnone m hm)
  · have hnone : ∀ m : Nat, 0 < m → ¬ SpellsInteger text.toList m :=
      fun m hm hspelled => hspells ⟨m, hm, hspelled⟩
    rw [recursionLimit_of_other hnone]
    constructor
    · rintro rfl
      exact .inr ⟨hnone, rfl⟩
    · rintro (⟨hn, hspelled⟩ | ⟨-, rfl⟩)
      · exact absurd hspelled (hnone n hn)
      · rfl

/-- The decimal digits of a number are groups of digits, however underscores part them. -/
theorem spellsInteger_of_groups {n : Nat} (hn : n < Numeral.bound) {groups : List (List Char)}
    (hgroups : ∀ group ∈ groups, group ≠ []) (h : groups.flatten = Nat.toDigits 10 n) :
    SpellsInteger (['_'].intercalate groups) n := by
  have hne : groups ≠ [] := by
    rintro rfl
    exact Nat.toDigits_ne_nil h.symm
  have hdigits : groups.flatten.map Text.decimalDigit? = ((Nat.toDigits 10 n).map worth).map some := by
    rw [h, List.map_map]
    exact List.map_congr_left fun c hc => Text.decimalDigit?_of_isDigit (Numeral.isDigit_toDigits hc)
  have hlength : ((Nat.toDigits 10 n).map worth).length ≤ Numeral.maxDigits := by
    rw [List.length_map]
    exact Numeral.length_toDigits_of_lt_bound hn
  refine ⟨[], [], .none, _, _, by rw [List.append_nil]; rfl, by simp,
    ⟨groups, hne, hgroups, rfl, hdigits⟩, hlength, ?_⟩
  rw [Numeral.positional_toDigits]
  rfl

/-- The recursion limit is the positive integer that its text spells, as an optional sign and groups of
decimal digits between margins, and ten thousand if the text spells none or there is no text. So it is
positive, and each positive number below the bound is the limit that its decimal digits set, with or without
underscores between them. Whatever limit an interpreter is given, its runs have a thousand frames or more. -/
theorem recursion_limit_is_what_its_text_spells :
    (∀ text n, recursionLimit (some text) = n ↔
      (0 < n ∧ SpellsInteger text.toList n) ∨
        ((∀ m : Nat, 0 < m → ¬ SpellsInteger text.toList m) ∧ n = 10000)) ∧
    recursionLimit none = 10000 ∧
    (∀ setting, 0 < recursionLimit setting) ∧
    (∀ (n : Nat) (groups : List (List Char)), 0 < n → n < Numeral.bound →
      groups.flatten = Nat.toDigits 10 n → (∀ group ∈ groups, group ≠ []) →
      recursionLimit (some (String.ofList (['_'].intercalate groups))) = n) ∧
    ∀ bindings maxRecursion setting,
      1000 ≤ (Interpreter.new bindings maxRecursion (recursionLimit setting)).frames := by
  refine ⟨recursionLimit_eq_iff, rfl, fun setting => ?_, fun n groups hpos hn h hgroups => ?_,
    fun bindings maxRecursion setting => ?_⟩
  · cases setting with
    | none => decide
    | some text =>
      rcases (recursionLimit_eq_iff text _).1 rfl with ⟨hpos, -⟩ | ⟨-, hdefault⟩
      · exact hpos
      · rw [hdefault]
        decide
  · refine recursionLimit_of_spells hpos ?_
    rw [String.toList_ofList]
    exact spellsInteger_of_groups hn hgroups h
  · exact Nat.le_max_left 1000 _

/-- Digits of two scripts between margins, a text with two underscores together, and the digits of a number in
two groups. -/
theorem limits_of_three_texts :
    SpellsInteger " +1_0\u0663\n".toList (103 : Nat) ∧ recursionLimit (some " +1_0\u0663\n") = 103 ∧
      (∀ m : Nat, 0 < m → ¬ SpellsInteger "1__0".toList m) ∧ recursionLimit (some "1__0") = 10000 ∧
      1234 < Numeral.bound ∧ recursionLimit (some "12_34") = 1234 := by
  obtain ⟨hexact, -, -, hgroups, -⟩ := recursion_limit_is_what_its_text_spells
  have hspells : SpellsInteger " +1_0\u0663\n".toList (103 : Nat) :=
    integer?_eq_some_iff.1 (by decide +kernel)
  have hnone : ∀ m : Nat, 0 < m → ¬ SpellsInteger "1__0".toList m := by
    intro m _ hspelled
    have hread : integer? "1__0".toList = none := by decide +kernel
    rw [integer?_eq_some_iff.2 hspelled] at hread
    cases hread
  have hbound : 1234 < Numeral.bound := by decide +kernel
  refine ⟨hspells, (hexact _ 103).2 (.inl ⟨by decide, hspells⟩), hnone,
    (hexact _ 10000).2 (.inr ⟨hnone, rfl⟩), hbound, ?_⟩
  exact hgroups 1234 [['1', '2'], ['3', '4']] (by decide) hbound (by decide) (by decide)

end Settings

end MiniLisp
