import Mathlib.Data.List.Induction
import Mathlib.Data.List.Infix
import Mathlib.Order.Bounds.Basic
import MiniLisp.Proofs.Reading.Balance

/-!
Which bracket is reported where brackets do not balance: the first closing one in excess, whatever follows it,
and else the last opening one that is never closed (`SExpr.unmatched_bracket_is_reported`).
-/

namespace MiniLisp

/-! ## Brackets in excess -/

namespace Token

variable {depth : Nat} {tokens before after front rest : List Token}

/-- The tokens up to this position, with its own, close more lists than they open. -/
def ExceedsAt (tokens : List Token) (position : Nat) : Prop :=
  (tokens.take (position + 1)).count opening < (tokens.take (position + 1)).count closing

instance (tokens : List Token) (position : Nat) : Decidable (ExceedsAt tokens position) :=
  inferInstanceAs (Decidable (_ < _))

/-- The list that opens at this position is closed: up to some closing bracket, what follows is balanced. -/
def IsClosedAt (tokens : List Token) (position : Nat) : Prop :=
  ∃ between rest, tokens.drop (position + 1) = between ++ closing :: rest ∧ Balanced between

theorem take_length_succ (before after : List Token) (token : Token) :
    (before ++ token :: after).take (before.length + 1) = before ++ [token] := by
  rw [List.append_cons, List.take_left' (by simp)]

theorem drop_length_succ (before after : List Token) (token : Token) :
    (before ++ token :: after).drop (before.length + 1) = after := by
  rw [List.append_cons, List.drop_left' (by simp)]

/-- After balanced tokens a closing bracket is in excess. -/
theorem Balances.lt_count (h : Balanced before) :
    (before ++ [closing]).count opening < (before ++ [closing]).count closing := by
  have htotal := h.total
  rw [List.count_append, List.count_append, List.count_singleton_self, List.count_singleton,
    if_neg (by decide)]
  omega

/-- Tokens that somewhere close more lists than they open are balanced up to the first bracket in excess. -/
theorem exists_balanced_of_excess (hfront : front <+: tokens)
    (hexcess : front.count opening < front.count closing) :
    ∃ before after, tokens = before ++ closing :: after ∧ Balanced before := by
  -- By induction from the end: the last token matters only if there is no excess before it.
  induction tokens using List.reverseRecOn generalizing front with
  | nil =>
    rw [List.prefix_nil.1 hfront] at hexcess
    exact absurd hexcess (by decide)
  | append_singleton tokens token ih =>
    by_cases hearlier : ∃ front, front <+: tokens ∧ front.count opening < front.count closing
    · obtain ⟨front, hfront, hexcess⟩ := hearlier
      obtain ⟨before, after, rfl, hbefore⟩ := ih hfront hexcess
      exact ⟨before, after ++ [token], by simp, hbefore⟩
    · have hfronts : ∀ front, front <+: tokens → front.count closing ≤ 0 + front.count opening := by
        intro front hfront
        rw [Nat.zero_add]
        exact Nat.le_of_not_lt fun hlt => hearlier ⟨front, hfront, hlt⟩
      have hwhole : front = tokens ++ [token] := by
        rcases List.prefix_concat_iff.1 hfront with hwhole | hfront
        · exact hwhole
        · exact absurd ⟨front, hfront, hexcess⟩ hearlier
      have hle := hfronts tokens (List.prefix_refl tokens)
      rw [hwhole, List.count_append, List.count_append] at hexcess
      have htoken : token = closing := by
        by_contra hother
        have hnone : [token].count closing = 0 :=
          List.count_eq_zero_of_not_mem (by simpa using Ne.symm hother)
        omega
      subst htoken
      rw [List.count_singleton_self, List.count_singleton, if_neg (by decide)] at hexcess
      exact ⟨tokens, [], rfl, hfronts, by omega⟩

/-- The first excess is at the closing bracket that comes after balanced tokens. -/
theorem Balances.isLeast_exceedsAt (h : Balanced before) :
    IsLeast {i | ExceedsAt (before ++ closing :: after) i} before.length := by
  refine ⟨?_, fun i hi => Nat.le_of_not_lt fun hlt => ?_⟩
  · rw [Set.mem_ofPred_eq, ExceedsAt, take_length_succ]
    exact h.lt_count
  · have hle : i + 1 ≤ before.length := hlt
    rw [Set.mem_ofPred_eq, ExceedsAt, List.take_append_of_le_length hle] at hi
    -- Up to an earlier position there are only tokens of the balanced part.
    have hle := h.fronts _ (List.take_prefix (i + 1) before)
    omega

/-! ## Brackets that are not closed -/

theorem isClosedAt_length {token : Token} :
    IsClosedAt (front ++ token :: rest) front.length ↔
      ∃ between after, rest = between ++ closing :: after ∧ Balanced between := by
  rw [IsClosedAt, drop_length_succ]

/-- An opening bracket among balanced tokens has closing ones in excess after it. -/
theorem Balances.count_lt_after (h : Balanced (front ++ opening :: rest)) :
    rest.count opening < rest.count closing := by
  have hle := h.fronts front (List.prefix_append _ _)
  have htotal := h.total
  rw [List.count_append, List.count_append, List.count_cons_self,
    List.count_cons_of_ne (by decide)] at htotal
  omega

/-- A token at a later position stands among those that follow. -/
theorem exists_split_of_later {token other : Token} {i : Nat}
    (h : (front ++ other :: rest)[i]? = some token) (hlater : front.length < i) :
    ∃ mid after, rest = mid ++ token :: after ∧ i = (front ++ other :: mid).length := by
  obtain ⟨k, rfl⟩ : ∃ k, i = front.length + (k + 1) := ⟨i - front.length - 1, by omega⟩
  rw [List.getElem?_append_right (by omega), Nat.add_sub_cancel_left, List.getElem?_cons_succ] at h
  obtain ⟨hk, rfl⟩ := List.getElem?_eq_some_iff.1 h
  refine ⟨rest.take k, rest.drop (k + 1), ?_, ?_⟩
  · rw [List.getElem_cons_drop, List.take_append_drop]
  · rw [List.length_append, List.length_cons, List.length_take_of_le (Nat.le_of_lt hk)]

section

variable (h : Balanced rest)
include h

/-- With balanced tokens after it an opening bracket is not closed, and all later ones are. -/
theorem Balances.isGreatest_not_isClosedAt :
    IsGreatest {i | (front ++ opening :: rest)[i]? = some opening ∧
      ¬ IsClosedAt (front ++ opening :: rest) i} front.length := by
  refine ⟨⟨by simp, ?_⟩, fun i hi => Nat.le_of_not_lt fun hlt => ?_⟩
  · rw [isClosedAt_length]
    rintro ⟨between, after, rfl, hbetween⟩
    have hle := h.fronts (between ++ [closing]) (by simp)
    have hlt := hbetween.lt_count
    omega
  · obtain ⟨mid, after, rfl, rfl⟩ := exists_split_of_later hi.1 hlt
    refine hi.2 ?_
    rw [← List.cons_append, ← List.append_assoc, isClosedAt_length]
    exact exists_balanced_of_excess (List.prefix_refl after) h.count_lt_after

/-- It is the last opening bracket with balanced tokens after it. -/
theorem Balances.isGreatest_balanced :
    IsGreatest {i | (front ++ opening :: rest)[i]? = some opening ∧
      Balanced ((front ++ opening :: rest).drop (i + 1))} front.length := by
  refine ⟨⟨by simp, ?_⟩, fun i hi => Nat.le_of_not_lt fun hlt => ?_⟩
  · rw [drop_length_succ]
    exact h
  · obtain ⟨mid, after, rfl, rfl⟩ := exists_split_of_later hi.1 hlt
    have hafter := hi.2.total
    rw [← List.cons_append, ← List.append_assoc, drop_length_succ] at hafter
    have hlt := h.count_lt_after
    omega

end

end Token

/-! ## Reading -/

namespace SExpr

open Token (Balances Balanced balances_opening balances_closing balances_atom balances_nil)

/-- A closing bracket is reported where all open lists have been closed before it, whatever follows it. -/
theorem readFrom_excess {position : Nat} {p : Pending} {before : List Token} (after : List Token)
    (h : Balances p.enclosing.length before) :
    readFrom position p (before ++ Token.closing :: after) =
      .error (.unmatchedClosing (position + before.length)) := by
  induction before generalizing position p with
  | nil =>
    obtain ⟨items, enclosing⟩ := p
    rw [balances_nil, List.length_eq_zero_iff] at h
    cases h
    rfl
  | cons token before ih =>
    have hposition : position + (token :: before).length = position + 1 + before.length := by
      rw [List.length_cons]
      omega
    rw [List.cons_append, readFrom, hposition]
    by_cases hopening : token = Token.opening
    · subst hopening
      rw [if_pos rfl]
      exact ih (p := p.opened position) (balances_opening.1 h)
    · rw [if_neg hopening]
      by_cases hclosing : token = Token.closing
      · subst hclosing
        obtain ⟨items, enclosing⟩ := p
        cases enclosing with
        | nil => exact absurd h Token.not_balanced_closing
        | cons outer enclosing =>
          rw [if_pos rfl]
          exact ih (balances_closing.1 h)
      · rw [if_neg hclosing]
        exact ih (p := p.push (.atom token)) ((balances_atom ⟨hopening, hclosing⟩).1 h)

/-- What is wrong with tokens, read from a position on, that come after the opening brackets in these places,
innermost first. -/
inductive Unmatched (position : Nat) (opened : List Nat) (tokens : List Token) : Fault → Prop
  | closing (before after : List Token) {found : Nat}
      (htokens : tokens = before ++ Token.closing :: after) (hfound : found = position + before.length)
      (h : Balances opened.length before) : Unmatched position opened tokens (.unmatchedClosing found)
  | opening (front rest : List Token) {found : Nat}
      (htokens : tokens = front ++ Token.opening :: rest) (hfound : found = position + front.length)
      (h : Balanced rest) : Unmatched position opened tokens (.unmatchedOpening found)
  /-- The tokens close all lists inside the one that opens at this earlier place. -/
  | earlier (inner : Nat) {found : Nat} (hfound : opened[inner]? = some found) (h : Balances inner tokens) :
      Unmatched position opened tokens (.unmatchedOpening found)

/-- What is wrong after a first token is wrong with it as well, if the lists that are open before the token and
after it differ by what the token opens or closes. -/
theorem Unmatched.cons {position : Nat} {opened inside : List Nat} {token : Token} {tokens : List Token}
    {fault : Fault} (h : Unmatched (position + 1) inside tokens fault)
    (hdepth : ∀ ts, Balances opened.length (token :: ts) ↔ Balances inside.length ts)
    (hearlier : ∀ inner found, inside[inner]? = some found → Balances inner tokens →
      Unmatched position opened (token :: tokens) (.unmatchedOpening found)) :
    Unmatched position opened (token :: tokens) fault := by
  cases h with
  | closing before after htokens hfound h =>
    refine .closing (token :: before) after ?_ ?_ ((hdepth before).2 h)
    · rw [htokens, List.cons_append]
    · rw [hfound, List.length_cons]
      omega
  | opening front rest htokens hfound h =>
    refine .opening (token :: front) rest ?_ ?_ h
    · rw [htokens, List.cons_append]
    · rw [hfound, List.length_cons]
      omega
  | earlier inner hfound h => exact hearlier inner _ hfound h

theorem unmatched_of_readFrom {position : Nat} {p : Pending} {tokens : List Token} {fault : Fault}
    (h : readFrom position p tokens = .error fault) :
    Unmatched position (p.enclosing.map Prod.fst) tokens fault := by
  fun_induction readFrom position p tokens with
  | case1 position p =>
    obtain ⟨items, enclosing⟩ := p
    cases enclosing with
    | nil => cases h
    | cons outer enclosing =>
      cases h
      exact .earlier 0 rfl (balances_nil.2 rfl)
  | case2 position p rest ih =>
    refine (ih h).cons (fun ts => balances_opening) fun inner found hfound hinner => ?_
    cases inner with
    | zero =>
      -- The list that is left open is the one that starts here.
      cases hfound
      exact .opening [] rest rfl rfl hinner
    | succ inner => exact .earlier inner hfound (balances_opening.2 hinner)
  | case3 position p rest hclosed hopening =>
    obtain ⟨items, enclosing⟩ := p
    cases enclosing with
    | nil =>
      cases h
      exact .closing [] rest rfl rfl (balances_nil.2 rfl)
    | cons outer enclosing => cases hclosed
  | case4 position p rest q hclosed hopening ih =>
    obtain ⟨items, enclosing⟩ := p
    cases enclosing with
    | nil => cases hclosed
    | cons outer enclosing =>
      cases hclosed
      refine (ih h).cons (fun ts => balances_closing) fun inner found hfound hinner => ?_
      exact .earlier (inner + 1) hfound (balances_closing.2 hinner)
  | case5 position p token rest hopening hclosing ih =>
    have hatom (depth : Nat) (ts : List Token) : Balances depth (token :: ts) ↔ Balances depth ts :=
      balances_atom ⟨hopening, hclosing⟩
    refine (ih h).cons (fun ts => hatom _ ts) fun inner found hfound hinner => ?_
    exact .earlier inner hfound ((hatom inner rest).2 hinner)

open Token (ExceedsAt IsClosedAt)

/-- Tokens are refused exactly if their brackets do not balance, and the right bracket is blamed. If somewhere
they close more lists than they open, it is the first closing bracket where they do, whatever follows it.
Else, if they open more lists than they close, it is the last opening bracket whose list is not closed,
which is the last one with balanced tokens after it. Else they are read. -/
theorem unmatched_bracket_is_reported (tokens : List Token) :
    ((∃ front, front <+: tokens ∧ front.count Token.opening < front.count Token.closing) →
      ∃ p, IsLeast {i | ExceedsAt tokens i} p ∧ ofTokens tokens = .error (.unmatchedClosing p) ∧
        ∀ after, ofTokens (tokens.take (p + 1) ++ after) = .error (.unmatchedClosing p)) ∧
    ((∀ front, front <+: tokens → front.count Token.closing ≤ front.count Token.opening) →
      (tokens.count Token.closing < tokens.count Token.opening →
        ∃ q, IsGreatest {i | tokens[i]? = some Token.opening ∧ ¬ IsClosedAt tokens i} q ∧
          IsGreatest {i | tokens[i]? = some Token.opening ∧ Balanced (tokens.drop (i + 1))} q ∧
          ofTokens tokens = .error (.unmatchedOpening q)) ∧
      (tokens.count Token.opening ≤ tokens.count Token.closing →
        ∃ nodes, ofTokens tokens = .ok nodes)) ∧
    ∀ position,
      (Fault.unmatchedClosing position).kind = .structural ∧
      (Fault.unmatchedClosing position).message =
        "Unmatched ')' at token " ++ Numeral.natText position ∧
      (Fault.unmatchedOpening position).kind = .structural ∧
      (Fault.unmatchedOpening position).message =
        "Unmatched '(' at token " ++ Numeral.natText position := by
  refine ⟨fun ⟨front, hfront, hexcess⟩ => ?_, fun hfronts => ⟨fun hopen => ?_, fun hclosed => ?_⟩,
    fun position => ⟨rfl, rfl, rfl, rfl⟩⟩
  · obtain ⟨before, after, rfl, hbefore⟩ := Token.exists_balanced_of_excess hfront hexcess
    have hread (rest : List Token) : ofTokens (before ++ Token.closing :: rest) =
        .error (.unmatchedClosing before.length) := by
      have hfrom := @readFrom_excess 0 .start _ rest hbefore
      rwa [Nat.zero_add] at hfrom
    refine ⟨before.length, hbefore.isLeast_exceedsAt, hread after, fun rest => ?_⟩
    rw [Token.take_length_succ, List.append_assoc]
    exact hread rest
  · cases hread : ofTokens tokens with
    | ok nodes =>
      have htotal := (readFrom_succeeds_iff.1 ⟨nodes, hread⟩).total
      rw [htotal] at hopen
      exact absurd hopen (by simp [Pending.start])
    | error fault =>
      cases unmatched_of_readFrom hread with
      | closing before after htokens hfound hbefore =>
        -- Then the tokens up to this bracket would close one list more than they open.
        have hle := hfronts (before ++ [Token.closing]) ⟨after, by rw [htokens]; simp⟩
        exact absurd hbefore.lt_count (Nat.not_lt.2 hle)
      | opening front rest htokens hfound hrest =>
        rw [Nat.zero_add] at hfound
        subst htokens hfound
        exact ⟨front.length, hrest.isGreatest_not_isClosedAt, hrest.isGreatest_balanced, rfl⟩
      | earlier inner hfound h => cases hfound
  · refine readFrom_succeeds_iff.2 ⟨fun front hfront => ?_, ?_⟩
    · rw [Pending.start, List.length_nil, Nat.zero_add]
      exact hfronts front hfront
    · have hle := hfronts tokens (List.prefix_refl tokens)
      rw [Pending.start, List.length_nil]
      omega

/-- Tokens with a closing bracket in excess and an opening one after it, and tokens with two open lists and a
closed one. -/
theorem report_of_two_brackets :
    let closedTwice : List Token := ["(", "a", ")", ")", "("]
    let leftOpen : List Token := ["(", "(", "a", "(", ")", "b"]
    IsLeast {i | ExceedsAt closedTwice i} 3 ∧
      ofTokens closedTwice = .error (.unmatchedClosing 3) ∧
      ofTokens ["(", "a", ")", ")", "b"] = .error (.unmatchedClosing 3) ∧
      IsGreatest {i | leftOpen[i]? = some Token.opening ∧ ¬ IsClosedAt leftOpen i} 1 ∧
      IsGreatest {i | leftOpen[i]? = some Token.opening ∧ Balanced (leftOpen.drop (i + 1))} 1 ∧
      ofTokens leftOpen = .error (.unmatchedOpening 1) ∧
      ∃ nodes, ofTokens (leftOpen.drop 2) = .ok nodes := by
  intro closedTwice leftOpen
  have hfronts {tokens : List Token}
      (h : ∀ front ∈ tokens.inits, front.count Token.closing ≤ front.count Token.opening) :
      ∀ front, front <+: tokens → front.count Token.closing ≤ front.count Token.opening :=
    fun front hfront => h front ((List.mem_inits front tokens).2 hfront)
  obtain ⟨hexcess, -, -⟩ := unmatched_bracket_is_reported closedTwice
  obtain ⟨p, hp, hread, hafter⟩ := hexcess ⟨["(", "a", ")", ")"], by decide, by decide⟩
  have hthree : p = 3 := by cases hread; rfl
  subst hthree
  obtain ⟨-, hopen, -⟩ := unmatched_bracket_is_reported leftOpen
  obtain ⟨q, hq, hlast, hread'⟩ := (hopen (hfronts (by decide))).1 (by decide)
  have hone : q = 1 := by cases hread'; rfl
  subst hone
  obtain ⟨-, hclosed, -⟩ := unmatched_bracket_is_reported (leftOpen.drop 2)
  exact ⟨hp, hread, hafter ["b"], hq, hlast, hread', (hclosed (hfronts (by decide))).2 (by decide)⟩

end SExpr

end MiniLisp
