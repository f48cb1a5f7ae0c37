import MiniLisp.Proofs.Reading.Brackets

/-!
Balanced tokens. Brackets balance if at no point more of them have closed than opened, and as many have in
the end. Exactly the balanced tokens are read, and what they are read as writes them
(`SExpr.reading_undoes_writing`).
-/

namespace MiniLisp

namespace Token

/-- The tokens close so many lists besides those that they open: up to no point do they close more, and in
all they close no fewer. -/
structure Balances (depth : Nat) (tokens : List Token) : Prop where
  fronts : ∀ front, front <+: tokens → front.count closing ≤ depth + front.count opening
  total : tokens.count closing = depth + tokens.count opening

/-- The tokens close the lists that they open, and no others. -/
abbrev Balanced (tokens : List Token) : Prop :=
  Balances 0 tokens

variable {depth next : Nat} {token : Token} {tokens : List Token}

/-- With the first token the depth changes by the bracket that it is. -/
theorem balances_cons (h : depth + [token].count opening = next + [token].count closing) :
    Balances depth (token :: tokens) ↔ Balances next tokens := by
  have hcount (bracket : Token) (ts : List Token) :
      (token :: ts).count bracket = [token].count bracket + ts.count bracket := by
    rw [← List.singleton_append, List.count_append]
  constructor
  · intro hb
    refine ⟨fun front hfront => ?_, ?_⟩
    · have hle := hb.fronts (token :: front) ((List.prefix_cons_inj token).2 hfront)
      rw [hcount closing, hcount opening] at hle
      omega
    · have htotal := hb.total
      rw [hcount closing, hcount opening] at htotal
      omega
  · intro hb
    refine ⟨fun front hfront => ?_, ?_⟩
    · rcases List.prefix_cons_iff.1 hfront with rfl | ⟨rest, rfl, hrest⟩
      · simp
      · have hle := hb.fronts rest hrest
        rw [hcount closing, hcount opening]
        omega
    · have htotal := hb.total
      rw [hcount closing, hcount opening]
      omega

theorem balances_nil : Balances depth [] ↔ depth = 0 := by
  constructor
  · intro h
    have htotal := h.total
    simpa using htotal.symm
  · rintro rfl
    exact ⟨by simp, by simp⟩

theorem balances_opening : Balances depth (opening :: tokens) ↔ Balances (depth + 1) tokens :=
  balances_cons (by rw [List.count_singleton_self]; rfl)

theorem balances_closing : Balances (depth + 1) (closing :: tokens) ↔ Balances depth tokens :=
  balances_cons (by rw [List.count_singleton_self]; rfl)

theorem not_balanced_closing : ¬ Balanced (closing :: tokens) := by
  intro h
  have hle := h.fronts [closing] (by simp)
  exact absurd hle (by decide)

theorem balances_atom (h : SExpr.IsNoBracket token) :
    Balances depth (token :: tokens) ↔ Balances depth tokens := by
  apply balances_cons
  rw [List.count_eq_zero_of_not_mem (by simpa using h.1.symm),
    List.count_eq_zero_of_not_mem (by simpa using h.2.symm)]

end Token

namespace SExpr

open Token (Balances Balanced)

/-- Tokens are read exactly if they close the lists that are open, and those that they open themselves. -/
theorem readFrom_succeeds_iff {position : Nat} {p : Pending} {tokens : List Token} :
    (∃ nodes, readFrom position p tokens = .ok nodes) ↔ Balances p.enclosing.length tokens := by
  fun_induction readFrom position p tokens with
  | case1 position p =>
    obtain ⟨items, enclosing⟩ := p
    rw [Token.balances_nil, List.length_eq_zero_iff]
    cases enclosing <;> simp [Pending.finish]
  | case2 position p rest ih =>
    rw [ih, Token.balances_opening]
    rfl
  | case3 position p rest hclosed hopening =>
    obtain ⟨items, enclosing⟩ := p
    cases enclosing with
    | nil => simp [Token.not_balanced_closing]
    | cons outer enclosing => cases hclosed
  | case4 position p rest q hclosed hopening ih =>
    obtain ⟨items, enclosing⟩ := p
    cases enclosing with
    | nil => cases hclosed
    | cons outer enclosing =>
      cases hclosed
      rw [ih, List.length_cons, Token.balances_closing]
  | case5 position p token rest hopening hclosing ih =>
    rw [ih, Token.balances_atom ⟨hopening, hclosing⟩]
    rfl

/-- Tokens that are read are those that write what they are read as, and its atoms are no brackets. All
S-expressions without brackets for atoms are read back from their tokens. And the tokens that are read are
the balanced ones. -/
theorem reading_undoes_writing :
    (∀ tokens nodes, ofTokens tokens = .ok nodes →
      tokensOf nodes = tokens ∧ ∀ token ∈ atomsOf nodes, IsNoBracket token) ∧
    (∀ nodes, (∀ token ∈ atomsOf nodes, IsNoBracket token) →
      ofTokens (tokensOf nodes) = .ok nodes) ∧
    ∀ tokens, (∃ nodes, ofTokens tokens = .ok nodes) ↔ Balanced tokens := by
  refine ⟨fun tokens nodes h => ofTokens_eq_ok_iff.1 h, fun nodes h => ?_, fun tokens => ?_⟩
  · exact ofTokens_eq_ok_iff.2 ⟨rfl, h⟩
  · exact readFrom_succeeds_iff

/-- Lists in lists, an empty one and an empty atom, and tokens with as many brackets in the wrong order. -/
theorem reading_of_nested_tokens :
    let nodes : List SExpr := [.list [.atom "", .list [.list []], .atom "x y"], .atom "a"]
    let tokens : List Token := ["(", "", "(", "(", ")", ")", "x y", ")", "a"]
    tokensOf nodes = tokens ∧ ofTokens tokens = .ok nodes ∧ Balanced tokens ∧
      (∀ token ∈ atomsOf nodes, IsNoBracket token) ∧ ∀ result, ofTokens [")", "("] ≠ .ok result := by
  intro nodes tokens
  obtain ⟨hback, hforth, hbalanced⟩ := reading_undoes_writing
  have hatoms : ∀ token ∈ atomsOf nodes, IsNoBracket token := by
    simp [nodes, IsNoBracket, Token.opening, Token.closing]
  have hwrites : tokensOf nodes = tokens := by simp [nodes, tokens, Token.opening, Token.closing]
  have hread : ofTokens tokens = .ok nodes := hwrites ▸ hforth nodes hatoms
  refine ⟨(hback tokens nodes hread).1, hread, (hbalanced tokens).1 ⟨nodes, hread⟩,
    (hback tokens nodes hread).2, fun result hresult => ?_⟩
  exact Token.not_balanced_closing ((hbalanced _).1 ⟨result, hresult⟩)

end SExpr

end MiniLisp
