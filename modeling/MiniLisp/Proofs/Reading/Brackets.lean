import MiniLisp.SExpr.Reader

/-!
Reading undoes writing. The tokens of S-expressions are read as these S-expressions again, if no atom is a
bracket, and tokens that are read are those of what they are read as (`SExpr.ofTokens_eq_ok_iff`).
-/

namespace MiniLisp.SExpr

mutual

/-- The atoms of an S-expression, in order. -/
def atoms : SExpr → List Token
  | .atom text => [text]
  | .list items => atomsOf items

/-- The atoms of several S-expressions. -/
def atomsOf : List SExpr → List Token
  | [] => []
  | item :: items => item.atoms ++ atomsOf items

end

/-- Neither of the two brackets. -/
def IsNoBracket (token : Token) : Prop :=
  token ≠ Token.opening ∧ token ≠ Token.closing

@[simp] theorem atoms_atom (text : String) : (SExpr.atom text).atoms = [text] := by
  rw [atoms]

@[simp] theorem atoms_list (items : List SExpr) : (SExpr.list items).atoms = atomsOf items := by
  rw [atoms]

@[simp] theorem atomsOf_nil : atomsOf [] = [] := by
  rw [atomsOf]

@[simp] theorem atomsOf_cons (item : SExpr) (items : List SExpr) :
    atomsOf (item :: items) = item.atoms ++ atomsOf items := by
  rw [atomsOf]

theorem mem_atomsOf {items : List SExpr} {token : Token} :
    token ∈ atomsOf items ↔ ∃ item ∈ items, token ∈ item.atoms := by
  induction items with
  | nil => simp
  | cons item items ih => simp [ih]

theorem mem_tokensOf {items : List SExpr} {token : Token} :
    token ∈ tokensOf items ↔ ∃ item ∈ items, token ∈ item.tokens := by
  induction items with
  | nil => simp
  | cons item items ih => simp [ih]

theorem mem_tokens_of_mem_atoms {node : SExpr} {token : Token} (h : token ∈ node.atoms) :
    token ∈ node.tokens := by
  induction node with
  | atom text => simpa using h
  | list items ih =>
    rw [atoms_list, mem_atomsOf] at h
    obtain ⟨item, hitem, htoken⟩ := h
    have hitems : token ∈ tokensOf items := mem_tokensOf.2 ⟨item, hitem, ih item hitem htoken⟩
    simp [hitems]

/-! ## What has been read -/

namespace Pending

/-- The tokens before the innermost open list, with its bracket. -/
def tokensBefore : List (Nat × List SExpr) → List Token
  | [] => []
  | (_, before) :: enclosing => tokensBefore enclosing ++ tokensOf before.reverse ++ [Token.opening]

/-- The tokens that have been read. -/
def tokens (p : Pending) : List Token :=
  tokensBefore p.enclosing ++ tokensOf p.items.reverse

theorem tokens_push (node : SExpr) (p : Pending) :
    (p.push node).tokens = p.tokens ++ node.tokens := by
  simp [push, tokens]

theorem tokens_opened (position : Nat) (p : Pending) :
    (p.opened position).tokens = p.tokens ++ [Token.opening] := by
  simp [opened, tokens, tokensBefore]

theorem tokens_closed {p q : Pending} (h : p.closed? = some q) :
    q.tokens = p.tokens ++ [Token.closing] := by
  obtain ⟨items, enclosing⟩ := p
  cases enclosing with
  | nil => cases h
  | cons outer enclosing =>
    cases h
    simp [tokens, tokensBefore]

theorem tokens_finish {p : Pending} {nodes : List SExpr} (h : p.finish = .ok nodes) :
    tokensOf nodes = p.tokens := by
  obtain ⟨items, enclosing⟩ := p
  cases enclosing with
  | nil =>
    cases h
    simp [tokens, tokensBefore]
  | cons outer enclosing => cases h

/-- No atom that has been read is a bracket. -/
structure NoBrackets (p : Pending) : Prop where
  items : ∀ token ∈ atomsOf p.items, IsNoBracket token
  enclosing : ∀ outer ∈ p.enclosing, ∀ token ∈ atomsOf outer.2, IsNoBracket token

theorem NoBrackets.push {p : Pending} (h : p.NoBrackets) {node : SExpr}
    (hnode : ∀ token ∈ node.atoms, IsNoBracket token) : (p.push node).NoBrackets := by
  refine ⟨fun token htoken => ?_, h.enclosing⟩
  rw [Pending.push, atomsOf_cons, List.mem_append] at htoken
  exact htoken.elim (hnode token) (h.items token)

theorem NoBrackets.opened {p : Pending} (h : p.NoBrackets) (position : Nat) :
    (p.opened position).NoBrackets :=
  ⟨by simp [Pending.opened], List.forall_mem_cons.2 ⟨h.items, h.enclosing⟩⟩

theorem atomsOf_reverse {items : List SExpr} {token : Token} :
    token ∈ atomsOf items.reverse ↔ token ∈ atomsOf items := by
  simp [mem_atomsOf]

theorem NoBrackets.closed {p q : Pending} (h : p.NoBrackets) (hclosed : p.closed? = some q) :
    q.NoBrackets := by
  obtain ⟨items, enclosing⟩ := p
  cases enclosing with
  | nil => cases hclosed
  | cons outer enclosing =>
    cases hclosed
    obtain ⟨houter, henclosing⟩ := List.forall_mem_cons.1 h.enclosing
    refine ⟨fun token htoken => ?_, henclosing⟩
    rw [atomsOf_cons, atoms_list, List.mem_append, atomsOf_reverse] at htoken
    exact htoken.elim (h.items token) (houter token)

theorem NoBrackets.finish {p : Pending} (h : p.NoBrackets) {nodes : List SExpr}
    (hfinish : p.finish = .ok nodes) : ∀ token ∈ atomsOf nodes, IsNoBracket token := by
  obtain ⟨items, enclosing⟩ := p
  cases enclosing with
  | nil =>
    cases hfinish
    exact fun token htoken => h.items token (atomsOf_reverse.1 htoken)
  | cons outer enclosing => cases hfinish

end Pending

/-! ## Reading -/

theorem readFrom_eq_ok {position : Nat} {p : Pending} {tokens : List Token} {nodes : List SExpr}
    (h : readFrom position p tokens = .ok nodes) (hp : p.NoBrackets) :
    tokensOf nodes = p.tokens ++ tokens ∧ ∀ token ∈ atomsOf nodes, IsNoBracket token := by
  -- Each token moves from those to come to those of what is pending.
  fun_induction readFrom position p tokens with
  | case1 position p => exact ⟨by rw [Pending.tokens_finish h, List.append_nil], hp.finish h⟩
  | case2 position p rest ih =>
    obtain ⟨htokens, hatoms⟩ := ih h (hp.opened position)
    exact ⟨by rw [htokens, Pending.tokens_opened, List.append_assoc, List.singleton_append], hatoms⟩
  | case3 => cases h
  | case4 position p rest q hclosed hopening ih =>
    obtain ⟨htokens, hatoms⟩ := ih h (hp.closed hclosed)
    exact ⟨by rw [htokens, Pending.tokens_closed hclosed, List.append_assoc, List.singleton_append],
      hatoms⟩
  | case5 position p token rest hopening hclosing ih =>
    have hatom : ∀ t ∈ (SExpr.atom token).atoms, IsNoBracket t := by
      simp [IsNoBracket, hopening, hclosing]
    obtain ⟨htokens, hatoms⟩ := ih h (hp.push hatom)
    exact ⟨by rw [htokens, Pending.tokens_push, tokens_atom, List.append_assoc, List.singleton_append],
      hatoms⟩

/-- Its tokens are read as the S-expression itself, whatever has been read before. -/
def ReadsBack (node : SExpr) : Prop :=
  ∀ (position : Nat) (p : Pending) (rest : List Token),
    readFrom position p (node.tokens ++ rest) =
      readFrom (position + node.tokens.length) (p.push node) rest

theorem readFrom_tokensOf {items : List SExpr} (h : ∀ item ∈ items, item.ReadsBack)
    (position : Nat) (p : Pending) (rest : List Token) :
    readFrom position p (tokensOf items ++ rest) =
      readFrom (position + (tokensOf items).length) ⟨items.reverse ++ p.items, p.enclosing⟩ rest := by
  induction items generalizing position p with
  | nil => simp
  | cons item items ih =>
    obtain ⟨hitem, hitems⟩ := List.forall_mem_cons.1 h
    rw [tokensOf_cons, List.append_assoc, hitem, ih hitems, List.length_append, Nat.add_assoc,
      List.reverse_cons, List.append_assoc]
    rfl

theorem readsBack_of_atoms (node : SExpr) (hatoms : ∀ token ∈ node.atoms, IsNoBracket token) :
    node.ReadsBack := by
  induction node with
  | atom text =>
    intro position p rest
    obtain ⟨hopening, hclosing⟩ := hatoms text (by simp)
    rw [tokens_atom, List.singleton_append, readFrom, if_neg hopening, if_neg hclosing]
    rfl
  | list items ih =>
    intro position p rest
    have hitems : ∀ item ∈ items, item.ReadsBack := by
      intro item hitem
      refine ih item hitem fun token htoken => hatoms token ?_
      rw [atoms_list]
      exact mem_atomsOf.2 ⟨item, hitem, htoken⟩
    have hposition : position + (SExpr.list items).tokens.length =
        position + 1 + (tokensOf items).length + 1 := by
      simp only [tokens_list, List.length_cons, List.length_append, List.length_nil]
      omega
    -- The opening bracket starts a list, its items are read into it, and the closing one ends it.
    rw [hposition, tokens_list, List.cons_append, List.append_assoc, readFrom, if_pos rfl,
      readFrom_tokensOf hitems, List.singleton_append, readFrom, if_neg (by decide), if_pos rfl]
    simp [Pending.opened, Pending.closed?, Pending.push]

/-- Tokens are read as the S-expressions of which they are the tokens, and whose atoms are no brackets. -/
theorem ofTokens_eq_ok_iff {tokens : List Token} {nodes : List SExpr} :
    ofTokens tokens = .ok nodes ↔
      tokensOf nodes = tokens ∧ ∀ token ∈ atomsOf nodes, IsNoBracket token := by
  constructor
  · intro h
    have hstart : Pending.start.NoBrackets := ⟨by simp [Pending.start], by simp [Pending.start]⟩
    exact readFrom_eq_ok h hstart
  · rintro ⟨rfl, hatoms⟩
    have hnodes : ∀ node ∈ nodes, node.ReadsBack := fun node hnode =>
      readsBack_of_atoms node fun token htoken => hatoms token (mem_atomsOf.2 ⟨node, hnode, htoken⟩)
    have hread := readFrom_tokensOf hnodes 0 .start []
    rw [List.append_nil, Pending.start, List.append_nil] at hread
    rw [ofTokens, Pending.start, hread, readFrom, Pending.finish, List.reverse_reverse]

end MiniLisp.SExpr
