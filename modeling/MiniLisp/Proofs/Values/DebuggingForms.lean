import MiniLisp.Proofs.Numerals.Syntax
import MiniLisp.Proofs.Texts.SelfDelimiting
import MiniLisp.Proofs.Values.Equality
import MiniLisp.Value.Shown

/-!
Debugging forms tell things apart. No two expressions have the same one, and among values without closures
the same form is that of equal values (`debugging_forms_are_unambiguous`). The form of an expression shows
where it ends, whatever follows; that of a value does before a comma, a closing bracket or the end of the
text, as digits would run on.
-/

namespace MiniLisp

/-! ## Expressions -/

namespace Expr

theorem debugForms_eq_map (es : List Expr) : debugForms es = es.map debugForm := by
  induction es with
  | nil => rw [debugForms, List.map_nil]
  | cons e es ih => rw [debugForms, ih, List.map_cons]

/-- The debugging form of a branch, alone or in a conditional. -/
def branchForm (b : Expr × Expr) : String :=
  Text.record "Branch" [("question", b.1.debugForm), ("answer", b.2.debugForm)]

theorem debugForm_branch (b : Expr × Expr) : (branch b.1 b.2).debugForm = branchForm b := by
  rw [debugForm, branchForm]

theorem branchDebugForms_eq_map (branches : List (Expr × Expr)) :
    branchDebugForms branches = branches.map branchForm := by
  induction branches with
  | nil => rw [branchDebugForms, List.map_nil]
  | cons b branches ih => rw [branchDebugForms, ih, List.map_cons, branchForm]

/-- The names by which debugging forms of expressions begin. -/
def nodes : List String :=
  ["Literal", "Identifier", "Quote", "Branch", "Conditional", "Lambda", "Application", "EmptyList"]

/-- The name by which the debugging form of an expression begins. -/
def node : Expr → String
  | .literal _ => "Literal"
  | .identifier _ => "Identifier"
  | .quote _ => "Quote"
  | .branch _ _ => "Branch"
  | .cond _ => "Conditional"
  | .lambda _ _ => "Lambda"
  | .app _ _ => "Application"
  | .empty => "EmptyList"

theorem node_isAlpha (e : Expr) : e.node ≠ "" ∧ ∀ c ∈ e.node.toList, c.isAlpha = true := by
  have hmem : e.node ∈ nodes := by
    cases e <;> simp [node, nodes]
  have hnodes : ∀ name ∈ nodes, name ≠ "" ∧ name.toList.all Char.isAlpha = true := by
    decide
  exact ⟨(hnodes _ hmem).1, List.all_eq_true.1 (hnodes _ hmem).2⟩

theorem toList_debugForm (e : Expr) :
    ∃ inside, e.debugForm.toList = e.node.toList ++ '(' :: inside := by
  cases e <;> rw [debugForm, node] <;> exact Text.toList_record _ _

/-- The letters before the first bracket are the name. -/
theorem node_eq_of_debugForm {e e' : Expr} {rest rest' : List Char}
    (h : e.debugForm.toList ++ rest = e'.debugForm.toList ++ rest') : e.node = e'.node := by
  obtain ⟨inside, hform⟩ := e.toList_debugForm
  obtain ⟨inside', hform'⟩ := e'.toList_debugForm
  rw [hform, hform', List.append_assoc, List.append_assoc] at h
  have hbracket (tail : List Char) : ∀ c ∈ ('(' :: tail).head?, c.isAlpha = false := by
    rintro c ⟨⟩
    rfl
  obtain ⟨hchars, -⟩ := Text.append_inj_of_ends e.node_isAlpha.2 e'.node_isAlpha.2 (hbracket _)
    (hbracket _) h
  exact String.toList_injective hchars

theorem opens_debugForm (e : Expr) : ∃ c cs, e.debugForm.toList = c :: cs ∧ c ≠ ')' := by
  obtain ⟨inside, hform⟩ := e.toList_debugForm
  obtain ⟨hne, halpha⟩ := e.node_isAlpha
  cases hname : e.node.toList with
  | nil => exact absurd (String.toList_eq_nil_iff.1 hname) hne
  | cons c cs =>
    rw [hname] at hform halpha
    refine ⟨c, _, hform, ?_⟩
    rintro rfl
    exact absurd (halpha _ List.mem_cons_self) (by decide)

/-- It is enough to tell apart the expressions of one kind, which are made of some parts in the same way. -/
theorem selfDelimiting_of_node {α : Type} (make : α → Expr) (a : α) {form : α → String}
    (hform : ∀ b, (make b).debugForm = form b)
    (hnode : ∀ e : Expr, e.node = (make a).node → ∃ b, e = make b)
    (h : Text.SelfDelimiting form a) : Text.SelfDelimiting debugForm (make a) := by
  intro e rest rest' heq
  obtain ⟨b, rfl⟩ := hnode e (node_eq_of_debugForm heq).symm
  rw [hform, hform] at heq
  obtain ⟨rfl, hrest⟩ := h b rest rest' heq
  exact ⟨rfl, hrest⟩

/-- Whatever follows it, the debugging form of an expression is told from all others and from what follows:
the name says which fields there are, and each of them shows where it ends. -/
theorem selfDelimiting_debugForm (e : Expr) : Text.SelfDelimiting debugForm e := by
  induction e with
  | literal text =>
    refine selfDelimiting_of_node literal text (fun text => by rw [debugForm]) (fun e h => ?_)
      ((Text.selfDelimiting_quoted text).record_one "Literal" "text")
    cases e <;> simp [node] at h ⊢
  | identifier name =>
    refine selfDelimiting_of_node identifier name (fun name => by rw [debugForm]) (fun e h => ?_)
      ((Text.selfDelimiting_quoted name).record_one "Identifier" "name")
    cases e <;> simp [node] at h ⊢
  | quote datum ih =>
    refine selfDelimiting_of_node quote datum (fun datum => by rw [debugForm]) (fun e h => ?_)
      (ih.record_one "Quote" "datum")
    cases e <;> simp [node] at h ⊢
  | branch question answer ihquestion ihanswer =>
    refine selfDelimiting_of_node (fun b : Expr × Expr => branch b.1 b.2) (question, answer)
      debugForm_branch (fun e h => ?_) (ihquestion.record_two ihanswer "Branch" "question" "answer")
    cases e <;> simp [node] at h ⊢
  | cond branches ih =>
    have hbranches (b : Expr × Expr) (hb : b ∈ branches) : Text.SelfDelimiting branchForm b :=
      (ih b hb).1.record_two (ih b hb).2 "Branch" "question" "answer"
    have hopens (b : Expr × Expr) : ∃ c cs, (branchForm b).toList = c :: cs ∧ c ≠ ')' := by
      rw [← debugForm_branch]
      exact opens_debugForm _
    refine selfDelimiting_of_node cond branches
      (fun branches => by rw [debugForm, branchDebugForms_eq_map]) (fun e h => ?_)
      ((Text.SelfDelimiting.tupled hopens hbranches).record_one "Conditional" "branches")
    cases e <;> simp [node] at h ⊢
  | lambda params body ih =>
    have hparams := Text.SelfDelimiting.tupled Text.opens_quoted
      fun p (_ : p ∈ params) => Text.selfDelimiting_quoted p
    refine selfDelimiting_of_node (fun parts : List String × Expr => lambda parts.1 parts.2)
      (params, body) (fun parts => by rw [debugForm]) (fun e h => ?_)
      (hparams.record_two ih "Lambda" "params" "body")
    cases e <;> simp [node] at h ⊢
  | app func args ihfunc ihargs =>
    have hargs := Text.SelfDelimiting.tupled opens_debugForm ihargs
    refine selfDelimiting_of_node (fun parts : Expr × List Expr => app parts.1 parts.2)
      (func, args) (fun parts => by rw [debugForm, debugForms_eq_map]) (fun e h => ?_)
      (ihfunc.record_two hargs "Application" "func" "args")
    cases e <;> simp [node] at h ⊢
  | empty =>
    intro e rest rest' h
    have hnode := node_eq_of_debugForm h
    cases e with
    | empty => exact ⟨rfl, List.append_cancel_left h⟩
    | _ => simp [node] at hnode

end Expr

/-! ## Primitives -/

namespace Primitive

theorem label_injective {p q : Primitive} (h : p.label = q.label) : p = q := by
  have hlabels : ∀ p ∈ all, ∀ q ∈ all, p.label = q.label → p = q := by
    decide
  exact hlabels p (mem_all p) q (mem_all q) h

theorem selfDelimiting_debugForm (p : Primitive) : Text.SelfDelimiting debugForm p := by
  intro q rest rest' h
  have hlabel (p : Primitive) : ∀ c ∈ p.label.toList, (c != ':') = true := by
    have hlabels : ∀ p ∈ all, p.label.toList.all (· != ':') = true := by
      decide
    exact List.all_eq_true.1 (hlabels p (mem_all p))
  have hcolon (tail : List Char) : ∀ c ∈ (':' :: tail).head?, (c != ':') = false := by
    rintro c ⟨⟩
    rfl
  have hform (p : Primitive) (rest : List Char) : p.debugForm.toList ++ rest =
      "<Primitive.".toList ++ (p.label.toList ++
        ':' :: ((" '" ++ p.name ++ "'>").toList ++ rest)) := by
    simp [debugForm]
  rw [hform, hform] at h
  obtain ⟨hchars, htail⟩ :=
    Text.append_inj_of_ends (hlabel p) (hlabel q) (hcolon _) (hcolon _) (List.append_cancel_left h)
  obtain rfl := label_injective (String.toList_injective hchars)
  exact ⟨rfl, List.append_cancel_left (List.cons.inj htail).2⟩

end Primitive

/-! ## Values -/

namespace Value

/-- The value is no closure, and neither is any part of its pairs. -/
def isClosureFree : Value → Bool
  | .pair _ head tail => head.isClosureFree && tail.isClosureFree
  | .closure _ _ _ _ => false
  | _ => true

/-- The debugging form of a value, whatever the number of digits of its integers. -/
def debugText : Value → String
  | .int n => Numeral.text n
  | .bool b => if b then "True" else "False"
  | .symbol name => "Symbol(" ++ Text.quoted name ++ ")"
  | .text s => Text.quoted s
  | .nil => "()"
  | .pair _ head tail => Text.record "Pair" [("head", head.debugText), ("tail", tail.debugText)]
  | .primitive op => op.debugForm
  | .closure _ params body _ =>
    "Closure(" ++ Text.tupled (params.map Text.quoted) ++ ", " ++ Text.quoted body.source ++ ")"

theorem debugForm_eq_debugText {v : Value} (h : v.isWritable = true) :
    v.debugForm = .ok v.debugText := by
  induction v with
  | int n =>
    rw [isWritable, decide_eq_true_eq] at h
    rw [debugForm, debugText, Numeral.write, if_pos h]
  | pair cell head tail ihhead ihtail =>
    rw [isWritable, Bool.and_eq_true] at h
    rw [debugForm, debugText, ihhead h.1, ihtail h.2]
    rfl
  | _ => rw [debugForm, debugText]

theorem debugText_outline {v : Value} (h : v.isClosureFree = true) :
    v.outline.debugText = v.debugText := by
  induction v with
  | pair cell head tail ihhead ihtail =>
    rw [isClosureFree, Bool.and_eq_true] at h
    rw [outline, debugText, debugText, ihhead h.1, ihtail h.2]
  | closure => cases h
  | _ => rfl

/-- The kind of the values whose debugging form begins with that character. -/
def Kind.ofFirst : Char → Kind
  | 'T' | 'F' => .bool
  | 'S' => .symbol
  | '"' | '\'' => .text
  | '(' => .nil
  | 'P' => .pair
  | '<' => .primitive
  | 'C' => .closure
  | _ => .int

theorem Kind.ofFirst_of_isDigit {c : Char} (h : c.isDigit = true) : ofFirst c = .int := by
  unfold ofFirst
  split
  case h_10 => rfl
  all_goals exact absurd h (by decide)

/-- The first character of a debugging form tells the kind of the value. -/
theorem exists_first (v : Value) :
    ∃ c cs, v.debugText.toList = c :: cs ∧ Kind.ofFirst c = v.kind := by
  have hquoted (s : String) : Kind.ofFirst (Text.enclosingQuote s.toList) = .text := by
    rcases Text.enclosingQuote_cases s.toList with hquote | hquote <;> rw [hquote] <;> rfl
  cases v with
  | int n =>
    rw [debugText, Numeral.toList_text]
    split
    · exact ⟨_, _, rfl, rfl⟩
    · cases hdigits : Nat.toDigits 10 n.natAbs with
      | nil => exact absurd hdigits Nat.toDigits_ne_nil
      | cons c cs =>
        refine ⟨c, cs, rfl, Kind.ofFirst_of_isDigit ?_⟩
        exact Numeral.isDigit_toDigits (hdigits ▸ List.mem_cons_self)
  | bool b => cases b <;> exact ⟨_, _, rfl, rfl⟩
  | symbol name =>
    rw [debugText, String.append_assoc, String.toList_append]
    exact ⟨_, _, rfl, rfl⟩
  | text s => exact ⟨_, _, Text.toList_quoted s, hquoted s⟩
  | nil => exact ⟨_, _, rfl, rfl⟩
  | pair cell head tail =>
    obtain ⟨inside, hform⟩ := Text.toList_record "Pair" [("head", head.debugText), ("tail", tail.debugText)]
    exact ⟨_, _, hform, rfl⟩
  | primitive op =>
    simp only [debugText, Primitive.debugForm, String.append_assoc, String.toList_append]
    exact ⟨_, _, rfl, rfl⟩
  | closure cell params body env =>
    simp only [debugText, String.append_assoc, String.toList_append]
    exact ⟨_, _, rfl, rfl⟩

theorem kind_eq_of_debugText {a b : Value} {rest rest' : List Char}
    (h : a.debugText.toList ++ rest = b.debugText.toList ++ rest') : a.kind = b.kind := by
  obtain ⟨c, cs, ha, hkind⟩ := a.exists_first
  obtain ⟨d, ds, hb, hkind'⟩ := b.exists_first
  rw [ha, hb] at h
  rw [← hkind, ← hkind', (List.cons.inj h).1]

/-- What follows begins with no digit, as digits run on: it is nothing, or begins with a comma or a bracket. -/
def EndsForm (cs : List Char) : Prop :=
  ∀ c ∈ cs.head?, c = ',' ∨ c = ')'

theorem endsForm_furtherParts (parts : List String) (rest : List Char) :
    EndsForm (Text.furtherParts parts ++ rest) := by
  cases parts with
  | nil =>
    rintro c ⟨⟩
    exact .inr rfl
  | cons part parts =>
    rintro c ⟨⟩
    exact .inl rfl

/-- An integer is told from what follows, if no digit follows. -/
theorem text_inj {m n : Int} {rest rest' : List Char} (hrest : EndsForm rest)
    (hrest' : EndsForm rest')
    (h : (Numeral.text m).toList ++ rest = (Numeral.text n).toList ++ rest') : m = n ∧ rest = rest' := by
  let isNumeralChar (c : Char) : Bool := c.isDigit || c == '+' || c == '-'
  have hchars (n : Int) : ∀ c ∈ (Numeral.text n).toList, isNumeralChar c = true := by
    have hnumeral := Numeral.isNumeral_text n
    rw [hnumeral.toList_eq]
    intro c hc
    rcases List.mem_append.1 hc with hsign | hdigit
    · rcases Numeral.Sign.eq_of_mem_chars hsign with rfl | rfl <;> rfl
    · simp [isNumeralChar, hnumeral.isDigit c hdigit]
  have hends {rest : List Char} (hrest : EndsForm rest) : ∀ c ∈ rest.head?, isNumeralChar c = false := by
    intro c hc
    rcases hrest c hc with rfl | rfl <;> rfl
  obtain ⟨htext, htail⟩ :=
    Text.append_inj_of_ends (hchars m) (hchars n) (hends hrest) (hends hrest') h
  exact ⟨Numeral.text_injective (String.toList_injective htext), htail⟩

/-- The debugging form of a value without closures is told from those of unequal ones, and from what follows if
that ends it. -/
theorem outline_eq_of_debugText {a b : Value} (ha : a.isClosureFree = true)
    (hb : b.isClosureFree = true) {rest rest' : List Char} (hrest : EndsForm rest)
    (hrest' : EndsForm rest') (h : a.debugText.toList ++ rest = b.debugText.toList ++ rest') :
    a.outline = b.outline ∧ rest = rest' := by
  have hkind := kind_eq_of_debugText h
  induction a generalizing b rest rest' with
  | int m =>
    cases b with
    | int n =>
      obtain ⟨rfl, htail⟩ := text_inj hrest hrest' h
      exact ⟨rfl, htail⟩
    | _ => cases hkind
  | bool p =>
    cases b with
    | bool q =>
      cases p <;> cases q
      · exact ⟨rfl, List.append_cancel_left h⟩
      · exact absurd (List.cons.inj h).1 (by decide)
      · exact absurd (List.cons.inj h).1 (by decide)
      · exact ⟨rfl, List.append_cancel_left h⟩
    | _ => cases hkind
  | symbol name =>
    cases b with
    | symbol name' =>
      simp only [debugText, String.toList_append, List.append_assoc] at h
      obtain ⟨rfl, htail⟩ := Text.selfDelimiting_quoted name _ _ _ (List.append_cancel_left h)
      exact ⟨rfl, List.append_cancel_left htail⟩
    | _ => cases hkind
  | text s =>
    cases b with
    | text t =>
      obtain ⟨rfl, htail⟩ := Text.selfDelimiting_quoted s _ _ _ h
      exact ⟨rfl, htail⟩
    | _ => cases hkind
  | nil =>
    cases b with
    | nil => exact ⟨rfl, List.append_cancel_left h⟩
    | _ => cases hkind
  | pair cell head tail ihhead ihtail =>
    cases b with
    | pair cell' head' tail' =>
      rw [isClosureFree, Bool.and_eq_true] at ha hb
      rw [debugText, debugText, Text.toList_record_append, Text.toList_record_append] at h
      have hfirst := List.append_cancel_left h
      obtain ⟨hhead, hfields⟩ := ihhead ha.1 hb.1 (endsForm_furtherParts _ _)
        (endsForm_furtherParts _ _) hfirst (kind_eq_of_debugText hfirst)
      rw [List.map_singleton, List.map_singleton, Text.furtherParts_field, Text.furtherParts_field]
        at hfields
      have hsecond := List.append_cancel_left hfields
      obtain ⟨htail, hends⟩ := ihtail ha.2 hb.2 (endsForm_furtherParts [] rest)
        (endsForm_furtherParts [] rest') hsecond (kind_eq_of_debugText hsecond)
      exact ⟨by rw [outline, outline, hhead, htail], (List.cons.inj hends).2⟩
    | _ => cases hkind
  | primitive op =>
    cases b with
    | primitive op' =>
      obtain ⟨rfl, htail⟩ := op.selfDelimiting_debugForm _ _ _ h
      exact ⟨rfl, htail⟩
    | _ => cases hkind
  | closure => cases ha

end Value

/-- Debugging forms tell things apart. Of two values without closures whose integers can be written, the forms
are the same exactly if the values are equal, and of two expressions exactly if the expressions are the
same. -/
theorem debugging_forms_are_unambiguous :
    (∀ a b : Value, a.isClosureFree = true → b.isClosureFree = true → a.isWritable = true →
      b.isWritable = true → ∃ s t, a.debugForm = .ok s ∧ b.debugForm = .ok t ∧
        (s = t ↔ a.isEqual b = true)) ∧
    ∀ e e' : Expr, e.debugForm = e'.debugForm ↔ e = e' := by
  refine ⟨fun a b ha hb hwritable hwritable' => ?_, fun e e' => ⟨fun h => ?_, congrArg _⟩⟩
  · refine ⟨_, _, Value.debugForm_eq_debugText hwritable, Value.debugForm_eq_debugText hwritable', ?_⟩
    have hend : Value.EndsForm [] := by
      rintro c ⟨⟩
    rw [Value.isEqual_iff_outline_eq]
    constructor
    · intro h
      exact (Value.outline_eq_of_debugText ha hb hend hend (congrArg (·.toList ++ []) h)).1
    · intro h
      rw [← Value.debugText_outline ha, h, Value.debugText_outline hb]
  · exact (e.selfDelimiting_debugForm e' [] [] (congrArg (·.toList ++ []) h)).1

/-- Equal pairs made apart, a pair with a text that looks like the form of its other's symbol, and a parameter
that looks like two. -/
theorem debugging_forms_of_lookalikes :
    let a : Value := .pair 0 (.text "Symbol('x')") (.int (-10))
    let b : Value := .pair 5 (.text "Symbol('x')") (.int (-10))
    let c : Value := .pair 0 (.symbol "x") (.int (-10))
    a.isClosureFree = true ∧ a.isWritable = true ∧ b.isClosureFree = true ∧ b.isWritable = true ∧
      c.isClosureFree = true ∧ c.isWritable = true ∧
      a.debugForm = .ok "Pair(head=\"Symbol('x')\", tail=-10)" ∧ b.debugForm = a.debugForm ∧
      c.debugForm ≠ a.debugForm ∧
      (Expr.lambda ["x', 'y"] .empty).debugForm ≠ (Expr.lambda ["x", "y"] .empty).debugForm := by
  intro a b c
  obtain ⟨hvalues, hexprs⟩ := debugging_forms_are_unambiguous
  have ha : a.isClosureFree = true ∧ a.isWritable = true := by decide +kernel
  have hb : b.isClosureFree = true ∧ b.isWritable = true := by decide +kernel
  have hc : c.isClosureFree = true ∧ c.isWritable = true := by decide +kernel
  obtain ⟨s, t, hs, ht, hsame⟩ := hvalues b a hb.1 ha.1 hb.2 ha.2
  obtain ⟨s', t', hs', ht', hdiffer⟩ := hvalues c a hc.1 ha.1 hc.2 ha.2
  refine ⟨ha.1, ha.2, hb.1, hb.2, hc.1, hc.2, ?_, ?_, ?_, ?_⟩
  · rw [Value.debugForm_eq_debugText ha.2]
    rfl
  · rw [hs, ht, hsame.2 (by decide)]
  · rw [hs', ht']
    intro h
    exact absurd (hdiffer.1 (Except.ok.inj h)) (by decide)
  · exact fun h => absurd ((hexprs _ _).1 h) (by decide)

end MiniLisp
