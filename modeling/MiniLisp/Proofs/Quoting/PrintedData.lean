import MiniLisp.Proofs.Evaluation.Agreement
import MiniLisp.Proofs.Numerals.Decimal
import MiniLisp.Proofs.Quoting.Spelling
import MiniLisp.Proofs.Reachability.Cells
import MiniLisp.Proofs.Reading.SourceTexts

/-!
Printing data and reading them back under `quote`. All data come back but for lists that do not end in the
empty list: the dot in the text of such a list is read as one more symbol
(`printed_data_are_read_back`).
-/

namespace MiniLisp

namespace Value

/-! ## Data and their trees -/

/-- Data: integers that can be written, booleans, symbols that texts can write and that are read as such,
the empty list, and pairs of data. -/
inductive IsData : Value → Prop
  | int {n : Int} (h : n.natAbs < Numeral.bound) : IsData (.int n)
  | bool (b : Bool) : IsData (.bool b)
  | symbol {name : String} (hatom : Token.IsAtom name) (notInteger : Numeral.read name = .ok none)
      (notBoolean : name ≠ trueWord ∧ name ≠ falseWord) : IsData (.symbol name)
  | nil : IsData .nil
  | pair {cell : Nat} {head tail : Value} (hhead : IsData head) (htail : IsData tail) :
      IsData (.pair cell head tail)

/-- The same tree: pairs of the same trees, in any cells, or the same value that is no pair. -/
inductive SameTree : Value → Value → Prop
  | leaf {v : Value} (h : v.isPair = false) : SameTree v v
  | pair {cell cell' : Nat} {head head' tail tail' : Value} (hhead : SameTree head head')
      (htail : SameTree tail tail') : SameTree (.pair cell head tail) (.pair cell' head' tail')

theorem SameTree.isEqual {v w : Value} (h : v.SameTree w) (other : Value) :
    v.isEqual other = w.isEqual other := by
  induction h generalizing other with
  | leaf => rfl
  | pair _ _ ihhead ihtail =>
    cases other with
    | pair cell head tail => rw [Value.isEqual, Value.isEqual, ihhead, ihtail]
    | _ => rfl

/-- What a chain of pairs ends in. -/
def chainEnd : Value → Value
  | .pair _ _ tail => tail.chainEnd
  | v => v

/-- Every chain of pairs in the value ends in the empty list. -/
def IsProper (v : Value) : Prop :=
  ∀ cell head tail, v.Reaches (.pair cell head tail) → tail.chainEnd = .nil

/-- The value as the tail of a list that ends in the empty list: any other than a list stands there as an
element, after a symbol for the dot. It does not matter in which cells these two are. -/
def asTail : Value → Value
  | .nil => .nil
  | .pair cell head tail => .pair cell head tail
  | v => .pair 0 (.symbol ".") (.pair 0 v .nil)

/-- The value with a dot and the end as two more elements of each chain of pairs that does not end in the
empty list. -/
def withDots : Value → Value
  | .pair cell head tail => .pair cell head.withDots tail.withDots.asTail
  | v => v

theorem isProper_of_plain {v : Value} (h : v.cell? = none) : v.IsProper := by
  intro cell head tail hreaches
  cases hreaches with
  | refl => cases h
  | head | tail => cases h
  | captured => cases h

theorem isProper_pair {cell : Nat} {head tail : Value} :
    (pair cell head tail).IsProper ↔ tail.chainEnd = .nil ∧ head.IsProper ∧ tail.IsProper := by
  constructor
  · intro h
    exact ⟨h cell head tail (.refl _), fun c a b hreaches => h c a b (.head hreaches),
      fun c a b hreaches => h c a b (.tail hreaches)⟩
  · rintro ⟨hend, hhead, htail⟩ c a b hreaches
    cases hreaches with
    | refl => exact hend
    | head h => exact hhead c a b h
    | tail h => exact htail c a b h

/-- Data with dots equal the data without exactly if no dots were put in. -/
theorem IsData.isEqual_withDots_iff {v : Value} (h : v.IsData) :
    v.withDots.isEqual v = true ↔ v.IsProper := by
  induction h with
  | @pair cell head tail _ _ ihhead ihtail =>
    rw [withDots, isEqual, Bool.and_eq_true, ihhead, isProper_pair]
    -- A tail that is no list stands after a dot, and then a pair is beside a value that is none.
    cases tail with
    | nil =>
      have hnil : IsProper .nil := isProper_of_plain rfl
      simp [withDots, asTail, chainEnd, hnil]
    | pair c a b =>
      have hlist : asTail (withDots (.pair c a b)) = withDots (.pair c a b) := rfl
      rw [hlist, ihtail, isProper_pair, chainEnd]
      exact ⟨fun ⟨hhead, htail⟩ => ⟨htail.1, hhead, htail⟩, fun ⟨_, hhead, htail⟩ => ⟨hhead, htail⟩⟩
    | _ => simp [withDots, asTail, chainEnd, isEqual]
  | _ => exact iff_of_true (isEqual_refl _) (isProper_of_plain rfl)

/-! ## Texts of data -/

theorem IsData.isWritable {v : Value} (h : v.IsData) : v.isWritable = true := by
  induction h with
  | int h => rw [Value.isWritable, decide_eq_true_eq]; exact h
  | pair _ _ ihhead ihtail => rw [Value.isWritable, ihhead, ihtail, Bool.and_self]
  | _ => rfl

end Value

namespace SExpr

theorem isReadable_atom {text : String} (h : Token.IsAtom text) : (atom text).IsReadable := by
  intro token htoken
  rw [atoms_atom, List.mem_singleton] at htoken
  exact htoken ▸ h

theorem IsReadable.afterFirst {node : SExpr} (h : node.IsReadable) :
    ∀ token ∈ atomsOf node.afterFirst, Token.IsAtom token := by
  cases node with
  | atom text =>
    have hdot : Token.IsAtom "." := by decide
    simpa [SExpr.afterFirst, IsReadable, hdot] using h
  | list items => simpa [SExpr.afterFirst, IsReadable] using h

end SExpr

theorem Value.IsData.isReadable {v : Value} (h : v.IsData) : v.spelling.IsReadable := by
  induction h with
  | int => exact SExpr.isReadable_atom (Numeral.isNumeral_text _).isAtom
  | bool b =>
    refine SExpr.isReadable_atom ?_
    cases b <;> decide
  | symbol hatom => exact SExpr.isReadable_atom hatom
  | nil => simp [Value.spelling, SExpr.IsReadable]
  | pair _ _ ihhead ihtail =>
    intro token htoken
    rw [Value.spelling, SExpr.atoms_list, SExpr.atomsOf_cons, List.mem_append] at htoken
    exact htoken.elim (ihhead token) (ihtail.afterFirst token)

/-! ## Quoted texts -/

namespace Datum

/-- The further elements of a list of data whose tail is that datum: those of a list, or a dot and an
atom. -/
def afterFirst : Datum → List Datum
  | .list items => items
  | d => [.symbol ".", d]

theorem afterFirst_ofAtom {text : String} {d : Datum} (h : ofAtom text = .ok d) :
    d.afterFirst = [.symbol ".", d] := by
  unfold ofAtom at h
  obtain ⟨found, -, h⟩ := bind_eq_ok_iff.1 h
  cases found with
  | some n => cases h; rfl
  | none =>
    dsimp only at h
    split at h
    · cases h; rfl
    · split at h <;> cases h <;> rfl

end Datum

namespace Expr

theorem datum_ofQuoted_atom (text : String) :
    (ofQuoted (.atom text)).datum .unlimited = Fault.ofDigits (Datum.ofAtom text) := by
  rw [ofQuoted, datum]
  rfl

theorem datum_ofQuoted_cons {head : SExpr} {rest : List SExpr} {d : Datum} {ds : List Datum}
    (hhead : (ofQuoted head).datum .unlimited = .ok d)
    (hrest : dataOf .unlimited (ofQuotedItems rest) = .ok ds) :
    (ofQuoted (.list (head :: rest))).datum .unlimited = .ok (.list (d :: ds)) := by
  rw [ofQuoted, datum, Headroom.below_unlimited, Headroom.below_unlimited, hhead, hrest]
  rfl

/-- Quoting what spells the tail of a list gives the further elements of the list. -/
theorem dataOf_afterFirst {node : SExpr} {d : Datum}
    (h : (ofQuoted node).datum .unlimited = .ok d) :
    dataOf .unlimited (ofQuotedItems node.afterFirst) = .ok d.afterFirst := by
  match node with
  | .atom text =>
    have hdot : (ofQuoted (.atom ".")).datum .unlimited = .ok (.symbol ".") := by rfl
    have hatom := h
    rw [datum_ofQuoted_atom] at h
    cases hd : Datum.ofAtom text with
    | error limit => rw [hd] at h; cases h
    | ok d' =>
      rw [hd] at h
      cases h
      rw [Datum.afterFirst_ofAtom hd, SExpr.afterFirst, ofQuotedItems, ofQuotedItems, ofQuotedItems,
        dataOf, dataOf, dataOf, hdot, hatom]
      rfl
  | .list [] =>
    rw [ofQuoted, datum] at h
    cases h
    rfl
  | .list (head :: rest) =>
    rw [ofQuoted, datum] at h
    obtain ⟨-, -, h⟩ := bind_eq_ok_iff.1 h
    obtain ⟨first, hfirst, h⟩ := bind_eq_ok_iff.1 h
    obtain ⟨others, hothers, h⟩ := bind_eq_ok_iff.1 h
    cases h
    rw [Headroom.below_unlimited] at hfirst hothers
    rw [SExpr.afterFirst, ofQuotedItems, dataOf, hfirst, hothers]
    rfl

end Expr

/-! ## Reading back -/

namespace Value

theorem sameTree_afterFirst {d : Datum} {v : Value} (h : ∀ next, (d.place next).1.SameTree v)
    (next : Nat) : (Datum.placeItems d.afterFirst next).1.SameTree v.asTail := by
  have hplaced := h next
  cases d with
  | list items =>
    rw [Datum.place] at hplaced
    -- A list is its own tail: it is placed as the empty list or as a pair.
    have hself : v.asTail = v := by
      cases items with
      | nil => rw [Datum.placeItems] at hplaced; cases hplaced; rfl
      | cons item items => rw [Datum.placeItems] at hplaced; cases hplaced <;> rfl
    rw [hself]
    exact hplaced
  | _ =>
    -- Any other datum is placed after a symbol for the dot.
    rw [Datum.place] at hplaced
    cases hplaced
    exact .pair (.leaf rfl) (.pair (.leaf rfl) (.leaf rfl))

theorem IsData.exists_datum {v : Value} (h : v.IsData) :
    ∃ d, (Expr.ofQuoted v.spelling).datum .unlimited = .ok d ∧
      ∀ next, (d.place next).1.SameTree v.withDots := by
  induction h with
  | @int n h =>
    refine ⟨.int n, ?_, fun next => .leaf rfl⟩
    rw [spelling, Expr.datum_ofQuoted_atom, Datum.ofAtom, Numeral.read_text h]
    rfl
  | bool b =>
    refine ⟨.bool b, ?_, fun next => .leaf rfl⟩
    cases b <;> rfl
  | @symbol name hatom notInteger notBoolean =>
    refine ⟨.symbol name, ?_, fun next => .leaf rfl⟩
    rw [spelling, Expr.datum_ofQuoted_atom, Datum.ofAtom, notInteger]
    show Fault.ofDigits (if name = trueWord then _ else _) = _
    rw [if_neg notBoolean.1, if_neg notBoolean.2]
    rfl
  | nil => exact ⟨.list [], rfl, fun next => .leaf rfl⟩
  | @pair cell head tail _ _ ihhead ihtail =>
    obtain ⟨first, hfirst, hhead⟩ := ihhead
    obtain ⟨rest, hrest, htail⟩ := ihtail
    refine ⟨.list (first :: rest.afterFirst), ?_, fun next => ?_⟩
    · exact Expr.datum_ofQuoted_cons hfirst (Expr.dataOf_afterFirst hrest)
    · rw [Datum.place, Datum.placeItems, withDots]
      exact .pair (hhead next) (sameTree_afterFirst htail _)

end Value

/-- The text that quotes an S-expression. -/
theorem build_quoted_source {node : SExpr} (h : node.IsReadable) :
    (Source.text ("(quote " ++ node.source ++ ")")).build = .ok (.quote (.ofQuoted node)) := by
  have hquote : Token.IsAtom Keyword.quote.word := by decide
  have hform : (SExpr.list [.atom Keyword.quote.word, node]).IsReadable := by
    simpa [SExpr.IsReadable, hquote] using h
  have hsource : (SExpr.list [.atom Keyword.quote.word, node]).source =
      "(quote " ++ node.source ++ ")" := by
    have hword : "(quote " = "(" ++ Keyword.quote.word ++ " " := rfl
    rw [hword]
    simp [String.append_assoc]
  rw [← hsource]
  exact bind_eq_ok_iff.2 ⟨_, Source.read_source hform, Expr.build_eq_ok_iff.2 .quote⟩

/-- Data are read back from their texts. The text of data after `(quote ` is read, built and evaluated in any
environment to the same data, but for a dot and the end as two more elements of each chain of pairs that
does not end in the empty list. So what comes back equals the data exactly if all their chains do. -/
theorem printed_data_are_read_back {v : Value} (h : v.IsData) :
    ∃ text e, v.source = .ok text ∧ (Source.text ("(quote " ++ text ++ ")")).build = .ok e ∧
      ∀ env next, ∃ w m, EndsWith e env next (.ok w m) ∧ w.SameTree v.withDots ∧
        (w.isEqual v = true ↔ v.IsProper) := by
  obtain ⟨d, hdatum, htree⟩ := h.exists_datum
  refine ⟨_, _, (Value.source_eq_spelling h.isWritable).1, build_quoted_source h.isReadable,
    fun env next => ⟨_, _, (Evaluates.quote hdatum).endsWith, htree next, ?_⟩⟩
  rw [(htree next).isEqual v]
  exact h.isEqual_withDots_iff

/-- A list that ends in a number, with a pair that ends in a symbol, a keyword and the empty list for
elements. -/
theorem dotted_list_is_read_back :
    let v : Value := .pair 0 (.pair 1 (.symbol "a") (.symbol "b"))
      (.pair 2 (.symbol "lambda") (.pair 3 .nil (.int (-5))))
    let dotted : Value :=
      .pair 0 (.pair 1 (.symbol "a") (.pair 0 (.symbol ".") (.pair 0 (.symbol "b") .nil)))
        (.pair 2 (.symbol "lambda")
          (.pair 3 .nil (.pair 0 (.symbol ".") (.pair 0 (.int (-5)) .nil))))
    v.IsData ∧ v.source = .ok "((a . b) lambda () . -5)" ∧
      ∃ e, (Source.text "(quote ((a . b) lambda () . -5))").build = .ok e ∧
        ∃ w m, EndsWith e [] 7 (.ok w m) ∧ w.SameTree dotted ∧ w.isEqual v = false := by
  intro v dotted
  have hbound : (-5 : Int).natAbs < Numeral.bound := by decide +kernel
  have hword {name : String} (hatom : Token.IsAtom name) (hread : Numeral.read name = .ok none)
      (hother : name ≠ trueWord ∧ name ≠ falseWord) : (Value.symbol name).IsData :=
    .symbol hatom hread hother
  have hdata : v.IsData :=
    .pair (.pair (hword (by decide) rfl (by decide))
        (hword (by decide) rfl (by decide)))
      (.pair (hword (by decide) rfl (by decide)) (.pair .nil (.int hbound)))
  have hspelled : v.spelling.source = "((a . b) lambda () . -5)" := by cbv
  have hsource := (Value.source_eq_spelling hdata.isWritable).1
  rw [hspelled] at hsource
  have himproper : ¬ v.IsProper := by
    intro h
    cases h _ _ _ (.refl _)
  obtain ⟨text, e, htext, hbuild, hends⟩ := printed_data_are_read_back hdata
  rw [hsource] at htext
  cases htext
  obtain ⟨w, m, hrun, htree, hequal⟩ := hends [] 7
  exact ⟨hdata, hsource, e, hbuild, w, m, hrun, htree, Bool.eq_false_iff.2 (mt hequal.1 himproper)⟩

end MiniLisp
