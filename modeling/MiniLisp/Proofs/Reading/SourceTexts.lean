import MiniLisp.Proofs.Building.Grammar
import MiniLisp.Proofs.Reading.Brackets
import MiniLisp.Proofs.Reading.WrittenTokens
import MiniLisp.Source

/-!
Texts that are read as an S-expression: those that write its tokens (`Source.read_text_eq_ok_iff`). One of
them is its source text, which is the same for all of them (`Source.source_is_a_normal_form`).
-/

namespace MiniLisp

namespace SExpr

/-- The atoms of the S-expression are such as a text can write. -/
def IsReadable (node : SExpr) : Prop :=
  ∀ token ∈ node.atoms, Token.IsAtom token

theorem IsReadable.item {items : List SExpr} (h : (SExpr.list items).IsReadable) {item : SExpr}
    (hitem : item ∈ items) : item.IsReadable := by
  intro token htoken
  refine h token ?_
  rw [atoms_list]
  exact mem_atomsOf.2 ⟨item, hitem, htoken⟩

/-! ## Source texts -/

open Token (EndsAtom Written)

/-- Its source text writes its tokens, in front of any text that does not run on its last atom. -/
def SourceWrites (node : SExpr) : Prop :=
  ∀ (rest : List Char) (tokens : List Token), EndsAtom rest → Written rest tokens →
    Written (node.source.toList ++ rest) (node.tokens ++ tokens)

theorem written_sources {items : List SExpr} (h : ∀ item ∈ items, item.SourceWrites)
    {rest : List Char} {tokens : List Token} (hend : EndsAtom rest) (hrest : Written rest tokens) :
    Written ((" ".intercalate (items.map source)).toList ++ rest) (tokensOf items ++ tokens) := by
  induction items with
  | nil => simpa using hrest
  | cons item items ih =>
    obtain ⟨hitem, hitems⟩ := List.forall_mem_cons.1 h
    cases items with
    | nil => simpa using hitem rest tokens hend hrest
    | cons next items =>
      -- The space between two neighbours ends the last atom of the first.
      have hspace : Token.isSpace ' ' = true := by decide
      have hends (cs : List Char) : EndsAtom (' ' :: cs) :=
        Token.endsAtom_cons.2 (Token.isAtomChar_eq_false_iff.2 (.inr hspace))
      have hall := hitem _ _ (hends _) (.space hspace (ih hitems))
      simp only [List.map_cons, String.intercalate_cons_cons, String.toList_append,
        tokensOf_cons, List.append_assoc] at hall ⊢
      exact hall

theorem IsReadable.sourceWrites {node : SExpr} (h : node.IsReadable) : node.SourceWrites := by
  induction node with
  | atom text =>
    intro rest tokens hend hrest
    rw [source_atom, tokens_atom]
    exact .atom (h text (by simp)) hend hrest
  | list items ih =>
    intro rest tokens _ hrest
    have hclosing : Written (')' :: rest) (Token.closing :: tokens) := .bracket (by decide) hrest
    have hitems := written_sources (fun item hitem => ih item hitem (h.item hitem))
      (Token.endsAtom_cons.2 (by decide)) hclosing
    have hopening : Written ('(' :: _) (Token.opening :: _) := .bracket (by decide) hitems
    simpa [List.append_assoc] using hopening

end SExpr

/-! ## Reading -/

theorem Token.IsAtom.isNoBracket {token : Token} (h : Token.IsAtom token) :
    SExpr.IsNoBracket token := by
  constructor
  · rintro rfl
    exact absurd (h.isAtomChar '(' (by decide)) (by decide)
  · rintro rfl
    exact absurd (h.isAtomChar ')' (by decide)) (by decide)

theorem SExpr.single_eq_ok_iff {nodes : List SExpr} {node : SExpr} :
    single nodes = .ok node ↔ nodes = [node] := by
  match nodes with
  | [] => simp [single]
  | [found] => simp [single]
  | _ :: _ :: _ => simp [single]

/-- A text is read as an S-expression exactly if it writes its tokens, and its atoms are such as texts
write. -/
theorem Source.read_text_eq_ok_iff {text : String} {node : SExpr} :
    (Source.text text).read = .ok node ↔
      Token.Written text.toList node.tokens ∧ node.IsReadable := by
  have hread : (Source.text text).read = .ok node ↔
      SExpr.ofTokens (Token.ofText text) = .ok [node] := by
    rw [Source.read, SExpr.oneOfTokens, bind_eq_ok_iff]
    simp only [SExpr.single_eq_ok_iff, exists_eq_right]
  rw [hread, SExpr.ofTokens_eq_ok_iff]
  simp only [SExpr.tokensOf_cons, SExpr.tokensOf_nil, SExpr.atomsOf_cons, SExpr.atomsOf_nil,
    List.append_nil]
  rw [eq_comm, Token.ofText_eq_iff]
  constructor
  · rintro ⟨hwritten, hatoms⟩
    refine ⟨hwritten, fun token htoken => ?_⟩
    obtain ⟨hopening, hclosing⟩ := hatoms token htoken
    have htokens := SExpr.mem_tokens_of_mem_atoms htoken
    exact ((hwritten.isToken_of_mem htokens).resolve_left hopening).resolve_left hclosing
  · rintro ⟨hwritten, hreadable⟩
    exact ⟨hwritten, fun token htoken => (hreadable token htoken).isNoBracket⟩

theorem Source.read_source {node : SExpr} (h : node.IsReadable) :
    (Source.text node.source).read = .ok node := by
  have hwritten := h.sourceWrites [] [] Token.endsAtom_nil .nil
  rw [List.append_nil, List.append_nil] at hwritten
  exact Source.read_text_eq_ok_iff.2 ⟨hwritten, h⟩

/-! ## Normal forms -/

namespace Source

theorem ofText_of_read {text : String} {node : SExpr} (h : (Source.text text).read = .ok node) :
    Token.ofText text = node.tokens :=
  Token.ofText_eq_iff.2 (read_text_eq_ok_iff.1 h).1

theorem read_eq_of_ofText_eq {text other : String} (h : Token.ofText text = Token.ofText other) :
    (Source.text text).read = (Source.text other).read := by
  rw [read, read, h]

/-- The source text is a normal form of texts. An S-expression whose atoms texts can write is read from
its source, and from any other text that writes its tokens. What is read from a text is such an
S-expression, and its source has the tokens of the text; so two texts that are read have the same normal
form exactly if they have the same tokens. -/
theorem source_is_a_normal_form :
    (∀ node : SExpr, node.IsReadable → (Source.text node.source).read = .ok node ∧
      ∀ text, Token.Written text.toList node.tokens → (Source.text text).read = .ok node) ∧
    (∀ text node, (Source.text text).read = .ok node →
      node.IsReadable ∧ Token.ofText node.source = Token.ofText text) ∧
    ∀ text other node node', (Source.text text).read = .ok node →
      (Source.text other).read = .ok node' →
      (node.source = node'.source ↔ Token.ofText text = Token.ofText other) := by
  have hsource {text : String} {node : SExpr} (h : (Source.text text).read = .ok node) :
      Token.ofText node.source = Token.ofText text := by
    have hreadable := (read_text_eq_ok_iff.1 h).2
    rw [ofText_of_read h, ofText_of_read (read_source hreadable)]
  refine ⟨fun node h => ⟨read_source h, fun text htext => read_text_eq_ok_iff.2 ⟨htext, h⟩⟩,
    fun text node h => ⟨(read_text_eq_ok_iff.1 h).2, hsource h⟩, fun text other node node' h h' => ?_⟩
  constructor
  · intro hsame
    rw [← hsource h, hsame, hsource h']
  · intro hsame
    -- The same tokens are read as the same S-expression.
    have hread := read_eq_of_ofText_eq hsame
    rw [h, h'] at hread
    rw [Except.ok.inj hread]

/-- A text with white space of all four kinds around its tokens, and a space that is none of them. -/
abbrev laidOutText : String :=
  "\t(f()\r\n(a  b\u00a0 ) )\n"

/-- The normal form of `laidOutText` has its tokens, and is read as it is. -/
theorem normal_form_of_laid_out_text :
    let node : SExpr := .list [.atom "f", .list [], .list [.atom "a", .atom "b\u00a0"]]
    node.source = "(f () (a b\u00a0))" ∧ node.IsReadable ∧
      (Source.text node.source).read = .ok node ∧ (Source.text laidOutText).read = .ok node ∧
      Token.ofText node.source = Token.ofText laidOutText := by
  intro node
  have hread : (Source.text laidOutText).read = .ok node := by rfl
  obtain ⟨hreads, htexts, -⟩ := source_is_a_normal_form
  obtain ⟨hreadable, htokens⟩ := htexts laidOutText node hread
  obtain ⟨hsource, hwritten⟩ := hreads node hreadable
  have hlaidOut := hwritten laidOutText (Token.ofText_eq_iff.1 (ofText_of_read hread))
  exact ⟨by cbv, hreadable, hsource, hlaidOut, htokens⟩

end Source

end MiniLisp
