import MiniLisp.Proofs.Building.Spelling
import MiniLisp.Proofs.Evaluation.LastSteps
import MiniLisp.Proofs.Interpreter.RecursionLimit
import MiniLisp.Proofs.Numerals.Decimal
import MiniLisp.Proofs.Reading.SourceTexts

/-!
Recursion by self-application. No function of the language can name itself; one that is to recur gets a
delayed function for its recursive calls, which makes the next copy of it when it is called. Each turn of
the recursion makes two closures, and the scopes that they capture are as deep as before
(`Recursion.leadsTo_unfolded`).

The program of this module adds two integers, one by one: as long as the first is not zero, it is
decremented, and the second is incremented. So it ends for all natural numbers and for no negative ones
(`Recursion.addition_by_self_application`).
-/

namespace MiniLisp

namespace Recursion

/-! ## The combinator -/

/-- The expression `(f f)`. -/
abbrev selfCall : Expr :=
  .app (.literal "f") [.literal "f"]

/-- Its call makes the next copy of the recursive function, and calls it. -/
abbrev delayed : Expr :=
  .app selfCall [.literal "x", .literal "y"]

/-- Makes a copy of the recursive function, which has the delayed function for its recursive calls. -/
abbrev copy : Expr :=
  .app (.literal "le") [.lambda ["x", "y"] delayed]

/-- Makes a function of two arguments recursive: `le` makes it from what it is to call in its place. -/
abbrev combinator : Expr :=
  .lambda ["le"] (.app (.lambda ["f"] selfCall) [.lambda ["f"] copy])

section

variable (le : Value) (env : Environment)

/-- The function that makes copies of the recursive function when it is applied to itself. -/
abbrev copier (cell : Nat) : Value :=
  .closure cell ["f"] copy (env.extend [("le", le)])

/-- The delayed function of that copier. -/
abbrev delayedBy (cell copierCell : Nat) : Value :=
  .closure cell ["x", "y"] delayed ((env.extend [("le", le)]).extend [("f", copier le env copierCell)])

variable {le env}

theorem applies_copier {cell copierCell next : Nat} {o : Outcome Value}
    (h : Applies le [delayedBy le env next copierCell] (next + 1) o) :
    Applies (copier le env cell) [copier le env copierCell] next o :=
  .closure rfl (.app (.of_get? rfl) (.one .lambda) h)

/-- A recursive call leads to the call of the next copy of the function. -/
theorem leadsTo_unfolded {cell copierCell next m : Nat} {unfolded v w : Value}
    (h : Applies le [delayedBy le env next copierCell] (next + 1) (.ok unfolded m)) :
    (Task.apply (delayedBy le env cell copierCell) [v, w] next).LeadsTo (.apply unfolded [v, w] m) := by
  have hcopy : Evaluates selfCall (((env.extend [("le", le)]).extend
      [("f", copier le env copierCell)]).extend [("x", v), ("y", w)]) next (.ok unfolded m) :=
    .app (.of_get? rfl) (.one (.of_get? rfl)) (applies_copier h)
  exact (leadsTo_body rfl).trans (leadsTo_apply hcopy (.two (.of_get? rfl) (.of_get? rfl)))

/-- The combinator makes the first copy of the recursive function. -/
theorem evaluates_combinator {functional : Expr} {next k m : Nat} {unfolded : Value}
    (hle : Evaluates functional env (next + 1) (.ok le k))
    (h : Applies le [delayedBy le env (k + 2) (k + 1)] (k + 3) (.ok unfolded m)) :
    Evaluates (.app combinator [functional]) env next (.ok unfolded m) := by
  -- The combinator is made first, then what the functional makes, the function of `f`, and the copier.
  have hself : Evaluates selfCall ((env.extend [("le", le)]).extend [("f", copier le env (k + 1))])
      (k + 2) (.ok unfolded m) :=
    .app (.of_get? rfl) (.one (.of_get? rfl)) (applies_copier h)
  exact .app .lambda (.one hle) (.closure rfl (.app .lambda (.one .lambda) (.closure rfl hself)))

end

/-! ## Addition -/

/-- The recursive call of a turn. -/
abbrev recursiveCall : Expr :=
  .app (.literal "f") [.app (.literal "decr") [.literal "x"], .app (.literal "incr") [.literal "y"]]

/-- One turn: the second argument if the first is zero, and otherwise the recursive call. -/
abbrev turn : Expr :=
  .cond [(.app (.literal "zero?") [.literal "x"], .literal "y"), (.literal "else", recursiveCall)]

/-- Makes the adder from what it is to call in its place. -/
abbrev functional : Expr :=
  .lambda ["f"] (.lambda ["x", "y"] turn)

/-- What the functional is evaluated to. -/
abbrev adderMaker (cell : Nat) : Value :=
  .closure cell ["f"] (.lambda ["x", "y"] turn) [[]]

/-- The adder that makes its recursive calls to that value. -/
abbrev adder (cell : Nat) (recur : Value) : Value :=
  .closure cell ["x", "y"] turn (Environment.extend [[]] [("f", recur)])

/-- The scope of a turn. -/
abbrev turnScope (recur : Value) (m n : Int) : Environment :=
  (Environment.extend [[]] [("f", recur)]).extend [("x", .int m), ("y", .int n)]

section

variable {cell next : Nat} {recur : Value} {m n : Int}

/-- With zero for the first argument, a turn answers with the second. -/
theorem adder_zero : Applies (adder cell recur) [.int 0, .int n] next (.ok (.int n) next) := by
  have hzero : Evaluates (.app (.literal "zero?") [.literal "x"]) (turnScope recur 0 n) next
      (.ok (.bool true) next) := .of_number .isZero rfl rfl rfl
  exact .closure rfl (.cond (.selected hzero (.of_get? rfl)))

/-- With any other first argument, it leads to the recursive call. -/
theorem adder_leadsTo (hm : m ≠ 0) : (Task.apply (adder cell recur) [.int m, .int n] next).LeadsTo
    (.apply recur [.int (m - 1), .int (n + 1)] next) := by
  have hzero : Evaluates (.app (.literal "zero?") [.literal "x"]) (turnScope recur m n) next
      (.ok (.bool false) next) := .of_number .isZero rfl rfl (by simpa [Primitive.ofNumber?] using hm)
  have helse : Evaluates (.literal "else") (turnScope recur m n) next (.ok (.bool true) next) :=
    .literal (.isTrue ⟨lacks_iff.2 rfl, rfl⟩ (.inr rfl))
  have hdecr : Evaluates (.app (.literal "decr") [.literal "x"]) (turnScope recur m n) next
      (.ok (.int (m - 1)) next) := .of_number .decr rfl rfl rfl
  have hincr : Evaluates (.app (.literal "incr") [.literal "y"]) (turnScope recur m n) next
      (.ok (.int (n + 1)) next) := .of_number .incr rfl rfl rfl
  refine (leadsTo_body rfl).trans ((leadsTo_answer (.later hzero (by simp) (.here helse))).trans ?_)
  exact leadsTo_apply (.of_get? rfl) (.two hdecr hincr)

/-- The call of some copy of the adder. The copies differ in cells only. -/
inductive IsTurn (m n : Int) : Task → Prop
  | mk {cell makerCell delayedCell copierCell next : Nat} :
      IsTurn m n (.apply (adder cell (delayedBy (adderMaker makerCell) [[]] delayedCell copierCell))
        [.int m, .int n] next)

theorem applies_adderMaker : Applies (adderMaker cell) [recur] next (.ok (adder next recur) (next + 1)) :=
  .closure rfl .lambda

theorem IsTurn.leadsTo {t : Task} (h : IsTurn m n t) (hm : m ≠ 0) :
    ∃ t', IsTurn (m - 1) (n + 1) t' ∧ t.LeadsTo t' := by
  cases h with
  | mk => exact ⟨_, .mk, (adder_leadsTo hm).trans (leadsTo_unfolded applies_adderMaker)⟩

/-- With a natural number for the first argument, the last turn answers with the sum. -/
theorem IsTurn.ends {t : Task} (h : IsTurn m n t) (hm : 0 ≤ m) :
    ∃ next, t.EndsIn (.ok (.int (m + n)) next) := by
  -- The sum of the two arguments is the same in all turns.
  obtain ⟨k, hk⟩ := Int.eq_ofNat_of_zero_le hm
  induction k generalizing m n t with
  | zero =>
    obtain rfl : m = 0 := hk
    cases h with
    | @mk _ _ _ _ next =>
      rw [Int.zero_add]
      exact ⟨next, adder_zero⟩
  | succ k ih =>
    obtain ⟨t', hturn, hleads⟩ := h.leadsTo (by omega)
    obtain ⟨next, hends⟩ := ih hturn (by omega) (by omega)
    have hsum : m - 1 + (n + 1) = m + n := by omega
    rw [hsum] at hends
    exact ⟨next, hleads.ends hends⟩

/-- With a negative first argument, the turns go on for ever. -/
theorem not_endsIn_of_negative {t t' : Task} (h : t.LeadsTo t') (hturn : IsTurn m n t') (hm : m < 0)
    (o : Outcome Value) : ¬ t.EndsIn o := by
  -- No turn is the last, since all of them are as far from zero as this one, or farther.
  refine Task.never_ends (P := fun t => ∃ m n t', m < 0 ∧ IsTurn m n t' ∧ t.LeadsTo t') ?_
    ⟨m, n, t', hm, hturn, h⟩ o
  rintro t ⟨m, n, t', hm, hturn, hleads⟩
  obtain ⟨t'', hturn', hleads'⟩ := hturn.leadsTo hm.ne
  exact ⟨t', ⟨m - 1, n + 1, t'', by omega, hturn', hleads'⟩, hleads⟩

end

/-! ## The program -/

/-- Comes to the first copy of the adder. -/
abbrev adderProgram : Expr :=
  .app combinator [functional]

/-- The program that adds the integers with these numerals. -/
abbrev addition (s t : String) : Expr :=
  .app adderProgram [.literal s, .literal t]

/-- The program leads to the first turn. -/
theorem addition_leadsTo {s t : String} {m n : Int} (hs : Numeral.read s = .ok (some m))
    (ht : Numeral.read t = .ok (some n)) (next : Nat) :
    ∃ task, IsTurn m n task ∧ (Task.eval (addition s t) [[]] next).LeadsTo task := by
  have hadder : Evaluates adderProgram [[]] next
      (.ok (adder (next + 5) (delayedBy (adderMaker (next + 1)) [[]] (next + 4) (next + 3))) (next + 6)) :=
    evaluates_combinator .lambda applies_adderMaker
  have hlacks (name : String) : Lacks [[]] name := lacks_iff.2 rfl
  have hargs {k : Nat} : EvaluatesAll [.literal s, .literal t] [[]] k (.ok [.int m, .int n] k) :=
    .two (.literal (.integer (hlacks s) hs)) (.literal (.integer (hlacks t) ht))
  exact ⟨_, .mk, leadsTo_apply hadder hargs⟩

/-- The text of the function that adds. -/
abbrev adderText : String :=
  "((lambda (le)\n" ++
  "                ((lambda (f) (f f))\n" ++
  "                 (lambda (f)\n" ++
  "                   (le (lambda (x y) ((f f) x y))))))\n" ++
  "              (lambda (f)\n" ++
  "                (lambda (x y)\n" ++
  "                  (cond\n" ++
  "                    ((zero? x) y)\n" ++
  "                    (else (f (decr x) (incr y)))))))"

/-- The text of the program, with these two numerals. -/
def additionText (s t : String) : String :=
  "\n       (" ++ adderText ++ "\n             " ++ s ++ " " ++ t ++ ")\n    "

section

variable {s t : String} (hs : Token.IsAtom s) (ht : Token.IsAtom t)
include hs ht

theorem isReadable_addition : (addition s t).spelling.IsReadable := by
  have hadder : adderProgram.spelling.IsReadable := by
    show ∀ token ∈ adderProgram.spelling.atoms, Token.IsAtom token
    decide +kernel
  intro token htoken
  rw [Expr.spelling, SExpr.atoms_list, SExpr.atomsOf_cons, List.mem_append] at htoken
  rcases htoken with htoken | htoken
  · exact hadder token htoken
  · have hnumerals : token = s ∨ token = t := by simpa [Expr.spelling] using htoken
    rcases hnumerals with rfl | rfl
    · exact hs
    · exact ht

theorem written_additionText : Token.Written (additionText s t).toList (addition s t).spelling.tokens := by
  have hfront : Token.Written ("\n       (" ++ adderText).toList
      (Token.opening :: adderProgram.spelling.tokens) := by
    -- Line by line, as the characters of one long text take long to find.
    apply Token.ofText_eq_iff.1
    simp only [Token.ofText, adderText, String.toList_append, -String.reduceAppend]
    decide +kernel
  have hback : Token.Written ")\n    ".toList [Token.closing] := Token.ofText_eq_iff.1 (by decide)
  -- From the back to the front: each part ends the last atom of the one before.
  have hsecond : Token.Written (" ".toList ++ (t.toList ++ ")\n    ".toList)) [t, Token.closing] :=
    .gap (by decide) (.atom ht (Token.endsAtom_of_head? rfl (by decide)) hback)
  have hboth : Token.Written ("\n             ".toList ++ (s.toList ++ (" ".toList ++
      (t.toList ++ ")\n    ".toList)))) [s, t, Token.closing] :=
    .gap (by decide) (.atom hs (Token.endsAtom_of_head? rfl (by decide)) hsecond)
  have hall := hfront.append hboth fun _ _ _ => Token.endsAtom_of_head? rfl (by decide)
  have htokens : (addition s t).spelling.tokens =
      (Token.opening :: adderProgram.spelling.tokens) ++ [s, t, Token.closing] := by
    rw [Expr.spelling, SExpr.tokens_list, SExpr.tokensOf_cons]
    simp [Expr.spelling]
  rw [htokens]
  unfold additionText
  simp only [String.toList_append, List.append_assoc, -String.reduceAppend] at hall ⊢
  exact hall

theorem build_additionText : (Source.text (additionText s t)).build = .ok (addition s t) := by
  have hread := Source.read_text_eq_ok_iff.2 ⟨written_additionText hs ht, isReadable_addition hs ht⟩
  rw [Source.build, hread]
  rfl

end

/-! ## Answers -/

section

variable {s t : String} {m n : Int} (hs : Numeral.read s = .ok (some m))
  (ht : Numeral.read t = .ok (some n))
include hs ht

theorem addition_comesTo (hm : 0 ≤ m) (next : Nat) :
    ∃ k, ComesTo [[]] (additionText s t) next (.ok (.int (m + n))) k := by
  obtain ⟨task, hturn, hleads⟩ := addition_leadsTo hs ht next
  obtain ⟨k, hends⟩ := hturn.ends hm
  have hbuild := build_additionText (Numeral.isAtom_of_read hs) (Numeral.isAtom_of_read ht)
  exact ⟨k, .value hbuild (hleads.ends hends)⟩

theorem addition_not_comesTo (hm : m < 0) (next : Nat) (result : Except Fault Value) (k : Nat) :
    ¬ ComesTo [[]] (additionText s t) next result k := by
  obtain ⟨task, hturn, hleads⟩ := addition_leadsTo hs ht next
  have hbuild := build_additionText (Numeral.isAtom_of_read hs) (Numeral.isAtom_of_read ht)
  exact not_comesTo_of_never_ends hbuild (not_endsIn_of_negative hleads hturn hm) result k

end

/-- Recursion by self-application. In an empty environment, the program that adds two integers one by one
answers with their sum under all recursion limits from some threshold on, if the first integer is a natural
number. If it is negative, then the run is too deep under all of them. -/
theorem addition_by_self_application {s t : String} {m n : Int} (hs : Numeral.read s = .ok (some m))
    (ht : Numeral.read t = .ok (some n)) (configured next : Nat) :
    (0 ≤ m → ∃ threshold : Int, ∀ limit ≥ threshold,
      ((Interpreter.new [] (some limit) configured).eval (additionText s t) next).1 =
        .ok (.int (m + n))) ∧
    (m < 0 → ∀ maxRecursion : Option Int, IsTooDeep (additionText s t)
      ((Interpreter.new [] maxRecursion configured).eval (additionText s t) next).1) := by
  refine ⟨fun hm => ?_, fun hm maxRecursion => ?_⟩
  · obtain ⟨k, hcomes⟩ := addition_comesTo hs ht hm next
    obtain ⟨threshold, hthreshold⟩ := hcomes.threshold
    -- A limit of zero would stand for the configured one.
    refine ⟨max threshold 1, fun limit hlimit => ?_⟩
    have hframes : threshold ≤ framesUnder limit := by
      unfold framesUnder
      omega
    have hanswer := (hthreshold limit).1 hframes
    rw [Interpreter.eval_new, Interpreter.maxRecursion_new (by omega)]
    exact congrArg Prod.fst hanswer
  · rw [Interpreter.eval_new]
    exact isTooDeep_of_not_comesTo (addition_not_comesTo hs ht hm next) _

/-- An addition that ends, and one that goes past zero without meeting it. -/
theorem addition_of_ten_and_of_minus_three :
    Numeral.read "10" = .ok (some 10) ∧ Numeral.read "22" = .ok (some 22) ∧
      (∃ threshold : Int, ∀ limit ≥ threshold,
        ((Interpreter.new [] (some limit) 10000).eval (additionText "10" "22") 0).1 = .ok (.int 32)) ∧
      Numeral.read "-3" = .ok (some (-3)) ∧ Numeral.read "+05" = .ok (some 5) ∧
      ∀ maxRecursion : Option Int, IsTooDeep (additionText "-3" "+05")
        ((Interpreter.new [] maxRecursion 10000).eval (additionText "-3" "+05") 0).1 := by
  have hten : Numeral.read "10" = .ok (some 10) := by decide
  have htwentyTwo : Numeral.read "22" = .ok (some 22) := by decide
  have hminusThree : Numeral.read "-3" = .ok (some (-3)) := by decide
  have hfive : Numeral.read "+05" = .ok (some 5) := by decide
  obtain ⟨hsum, -⟩ := addition_by_self_application hten htwentyTwo 10000 0
  obtain ⟨-, hdeep⟩ := addition_by_self_application hminusThree hfive 10000 0
  exact ⟨hten, htwentyTwo, hsum (by decide), hminusThree, hfive, hdeep (by decide)⟩

end Recursion

end MiniLisp
