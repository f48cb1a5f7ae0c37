import MiniLisp.Proofs.Building.EnoughRoom
import MiniLisp.Proofs.Evaluation.LastSteps
import MiniLisp.Proofs.Interpreter.Unlogged

/-!
The recursion limit. Without a limit a text is read and built, and the rules of the language say what
its expression comes to. A limit cuts some runs off and changes nothing else: a text has one answer
under all limits from some threshold on, and under all smaller ones its run is too deep.
-/

namespace MiniLisp

/-- What a text comes to with no limit on frames, and the next free cell. -/
inductive ComesTo (env : Environment) (code : String) (next : Nat) : Except Fault Value → Nat → Prop
  | unbuilt {fault : Fault} (h : (Source.text code).build = .error fault) :
      ComesTo env code next (.error fault) next
  | value {e : Expr} {v : Value} {m : Nat} (h : (Source.text code).build = .ok e)
      (heval : Evaluates e env next (.ok v m)) : ComesTo env code next (.ok v) m
  | fails {e : Expr} {fault : Fault} {m : Nat} (h : (Source.text code).build = .ok e)
      (heval : Evaluates e env next (.error fault m)) : ComesTo env code next (.error fault) m

/-- The frames of a run with that recursion limit. -/
abbrev framesUnder (limit : Int) : Nat :=
  max Interpreter.leastFrames limit.toNat

/-- What the interpreter with that recursion limit answers to a text, and the next free cell. -/
def answerUnder (limit : Int) (env : Environment) (code : String) (next : Nat) :
    Except Fault Value × Nat :=
  Interpreter.eval ⟨env, limit⟩ code next

/-- The answer is a fault of the kind for runs that are too deep. -/
def HasDepthFault (answer : Except Fault Value) : Prop :=
  ∃ fault, answer = .error fault ∧ fault.kind = .depth

/-- The answer is the fault of that kind, with its message. -/
def IsTooDeep (code : String) (answer : Except Fault Value) : Prop :=
  ∃ fault, answer = .error fault ∧ fault.kind = .depth ∧
    fault.message = "Recursion too deep while evaluating " ++ Interpreter.excerpt code

/-! ## Runs of a text -/

section

variable {frames more next : Nat} {env : Environment} {code : String}

theorem SExpr.readFrom_ne_outOfFrames (position : Nat) (p : Pending) (tokens : List Token) :
    readFrom position p tokens ≠ .error .outOfFrames := by
  fun_induction readFrom position p tokens with
  | case1 position p =>
    unfold Pending.finish
    split <;> simp
  | case2 position p rest ih => exact ih
  | case3 => simp
  | case4 position p rest hopening p' hclosed ih => exact ih
  | case5 position p token rest hopening hclosing ih => exact ih

theorem Source.read_ne_outOfFrames (code : String) :
    (Source.text code).read ≠ .error .outOfFrames := by
  have htokens := SExpr.readFrom_ne_outOfFrames 0 .start (Token.ofText code)
  show (SExpr.ofTokens (Token.ofText code) >>= SExpr.single) ≠ _
  unfold SExpr.ofTokens
  cases hread : SExpr.readFrom 0 .start (Token.ofText code) with
  | error fault =>
    rw [hread] at htokens
    exact fun hout => htokens (by rw [Except.error.inj hout])
  | ok nodes =>
    show SExpr.single nodes ≠ _
    unfold SExpr.single
    split <;> simp

theorem Source.buildIn_graded (code : String) :
    Graded fun room => (Source.text code).buildIn room :=
  (Graded.const (Source.read_ne_outOfFrames code)).bind Expr.build_graded

theorem runText_keeps (h : frames ≤ more) (env : Environment) (code : String) :
    KeepsRun (runText frames env code) (runText more env code) := by
  unfold runText
  refine .bind (.lift (Source.buildIn_graded code) (Headroom.noLarger_frames h)) fun e => ?_
  exact eval_keeps h e env

theorem runText_mono (hle : frames ≤ more) (h : Finished (runText frames env code next)) :
    runText more env code next = runText frames env code next := by
  rcases runText_keeps hle env code next with ⟨m, hout⟩ | hsame
  · rw [hout] at h
    exact absurd rfl h
  · exact hsame

theorem comesTo_of_finished (h : Finished (runText frames env code next)) :
    ComesTo env code next (Interpreter.answerOf code (runText frames env code next)).1
      (Interpreter.answerOf code (runText frames env code next)).2 := by
  have hunlimited := (Source.buildIn_graded code).eq_unlimited (.frames frames)
  unfold runText at h ⊢
  rw [EvalM.bind_run] at h ⊢
  cases hbuild : (Source.text code).buildIn (.frames frames) with
  | error fault =>
    rw [hbuild] at h hunlimited
    have hfault : fault ≠ .outOfFrames := h
    rw [EvalM.lift_error_run, Interpreter.answerOf_error hfault]
    exact .unbuilt (hunlimited fun hout => hfault (Except.error.inj hout))
  | ok e =>
    rw [hbuild] at h hunlimited
    have hbuilt : (Source.text code).build = .ok e := hunlimited (by simp)
    have hfinished : Finished (eval frames e env next) := h
    have heval := evaluates_of_finished hfinished
    simp only [EvalM.lift_ok_run]
    cases hrun : eval frames e env next with
    | ok v m =>
      rw [hrun] at heval
      exact .value hbuilt heval
    | error fault m =>
      rw [hrun] at heval hfinished
      rw [Interpreter.answerOf_error hfinished]
      exact .fails hbuilt heval

theorem not_comesTo_of_never_ends {e : Expr} (hbuild : (Source.text code).build = .ok e)
    (h : ∀ o, ¬ Evaluates e env next o) (result : Except Fault Value) (m : Nat) :
    ¬ ComesTo env code next result m := by
  intro hcomes
  cases hcomes with
  | unbuilt hfault =>
    rw [hbuild] at hfault
    cases hfault
  | value hbuilt heval =>
    rw [hbuild] at hbuilt
    cases hbuilt
    exact h _ heval
  | fails hbuilt heval =>
    rw [hbuild] at hbuilt
    cases hbuilt
    exact h _ heval

theorem ComesTo.settles {result : Except Fault Value} {m : Nat}
    (h : ComesTo env code next result m) :
    ∃ o, Settles (fun frames => runText frames env code next) o ∧
      Interpreter.answerOf code o = (result, m) := by
  have hgraded := Source.buildIn_graded code
  have hends {e : Expr} {o : Outcome Value} (hbuild : (Source.text code).build = .ok e)
      (heval : Evaluates e env next o) :
      Settles (fun frames => runText frames env code next) o :=
    .bind_ok (hgraded.settles_ok hbuild next) heval.endsWith
  cases h with
  | @unbuilt fault hbuild =>
    have hsettles := hgraded.settles_error hbuild next
    exact ⟨.error fault next, .bind_error hsettles,
      Interpreter.answerOf_error hsettles.finished code next⟩
  | @value e v _ hbuild heval => exact ⟨.ok v m, hends hbuild heval, rfl⟩
  | @fails e fault _ hbuild heval =>
    have hsettles := hends hbuild heval
    exact ⟨.error fault m, hsettles, Interpreter.answerOf_error hsettles.finished code m⟩

end

/-! ## Answers under a limit -/

section

variable {limit : Int} {env : Environment} {code : String} {next : Nat}

theorem Interpreter.eval_new (bindings : List (String × Value)) (maxRecursion : Option Int)
    (configured : Nat) (code : String) (next : Nat) :
    (Interpreter.new bindings maxRecursion configured).eval code next =
      answerUnder (Interpreter.new bindings maxRecursion configured).maxRecursion
        (Environment.ofBindings bindings) code next := rfl

/-- A recursion limit of zero stands for the configured one, and any other is that of the interpreter. -/
theorem Interpreter.maxRecursion_new (h : limit ≠ 0) (bindings : List (String × Value))
    (configured : Nat) : (Interpreter.new bindings (some limit) configured).maxRecursion = limit := by
  unfold Interpreter.new
  split
  · next hnone => cases hnone
  · next hzero => exact absurd (Option.some.inj hzero) h
  · next hsome => exact (Option.some.inj hsome).symm

theorem answerUnder_eq (limit : Int) (env : Environment) (code : String) (next : Nat) :
    answerUnder limit env code next =
      Interpreter.answerOf code (runText (framesUnder limit) env code next) :=
  Interpreter.eval_eq ⟨env, limit⟩ code next

theorem finished_or_isTooDeep (limit : Int) (env : Environment) (code : String) (next : Nat) :
    Finished (runText (framesUnder limit) env code next) ∨
      IsTooDeep code (answerUnder limit env code next).1 := by
  rw [answerUnder_eq]
  generalize runText (framesUnder limit) env code next = o
  cases o with
  | ok v m => exact .inl trivial
  | error fault m =>
    by_cases hout : fault = .outOfFrames
    · subst hout
      exact .inr ⟨_, rfl, rfl, rfl⟩
    · exact .inl hout

theorem finished_of_not_depth (h : ¬ HasDepthFault (answerUnder limit env code next).1) :
    Finished (runText (framesUnder limit) env code next) := by
  rcases finished_or_isTooDeep limit env code next with hfinished | ⟨fault, hfault, hdepth, _⟩
  · exact hfinished
  · exact absurd ⟨fault, hfault, hdepth⟩ h

/-- A text with no answer is too deep under all limits. -/
theorem isTooDeep_of_not_comesTo (h : ∀ result m, ¬ ComesTo env code next result m) (limit : Int) :
    IsTooDeep code (answerUnder limit env code next).1 :=
  (finished_or_isTooDeep limit env code next).resolve_left fun hfinished =>
    h _ _ (comesTo_of_finished hfinished)

/-- The limits under which a text gets its answer are those from some threshold on. -/
theorem ComesTo.threshold {result : Except Fault Value} {m : Nat}
    (h : ComesTo env code next result m) :
    ∃ threshold, ∀ limit : Int,
      (threshold ≤ framesUnder limit → answerUnder limit env code next = (result, m)) ∧
      (framesUnder limit < threshold → IsTooDeep code (answerUnder limit env code next).1) := by
  classical
  obtain ⟨o, hsettles, hanswer⟩ := h.settles
  have hsome : ∃ frames, Finished (runText frames env code next) := by
    obtain ⟨frames, hframes⟩ := hsettles.eventually.exists
    exact ⟨frames, hframes ▸ hsettles.finished⟩
  refine ⟨Nat.find hsome, fun limit => ⟨fun hle => ?_, fun hlt => ?_⟩⟩
  · -- All finished runs come to the same, since any two of them agree with a run of enough frames.
    have hrun := runText_mono hle (Nat.find_spec hsome)
    have hfinished : Finished (runText (framesUnder limit) env code next) :=
      hrun ▸ Nat.find_spec hsome
    have hlarge := (hsettles.eventually.and
      (Filter.eventually_ge_atTop (framesUnder limit))).exists
    obtain ⟨frames, hframes, hge⟩ := hlarge
    rw [answerUnder_eq, ← runText_mono hge hfinished, hframes, hanswer]
  · exact (finished_or_isTooDeep limit env code next).resolve_left (Nat.find_min hsome hlt)

end

/-- A recursion limit turns the answer of a text into one that says that its run is too deep, or leaves
it alone: `max 1000 limit` frames give the answer without a limit or are too few, larger limits keep
it, a text that has an answer gets it from some limit on, and one that has none is too deep under all
limits. -/
theorem recursion_limit_only_cuts_off (env : Environment) (code : String) (next : Nat) :
    (∀ limit, ¬ HasDepthFault (answerUnder limit env code next).1 →
      ComesTo env code next (answerUnder limit env code next).1 (answerUnder limit env code next).2 ∧
      ∀ larger : Int, framesUnder limit ≤ framesUnder larger →
        answerUnder larger env code next = answerUnder limit env code next) ∧
    (∀ result m, ComesTo env code next result m → ∃ threshold, ∀ limit : Int,
      (threshold ≤ framesUnder limit → answerUnder limit env code next = (result, m)) ∧
      (framesUnder limit < threshold → IsTooDeep code (answerUnder limit env code next).1)) ∧
    (∀ result m, ComesTo env code next result m →
      ∃ limit, answerUnder limit env code next = (result, m)) ∧
    ((∀ result m, ¬ ComesTo env code next result m) →
      ∀ limit, IsTooDeep code (answerUnder limit env code next).1) := by
  refine ⟨fun limit h => ⟨?_, fun larger hle => ?_⟩, fun result m h => h.threshold,
    fun result m h => ?_, fun h limit => ?_⟩
  · rw [answerUnder_eq]
    exact comesTo_of_finished (finished_of_not_depth h)
  · have hrun := runText_mono hle (finished_of_not_depth h)
    rw [answerUnder_eq, answerUnder_eq, hrun]
  · obtain ⟨threshold, hthreshold⟩ := h.threshold
    have hframes : threshold ≤ framesUnder threshold := by
      unfold framesUnder
      omega
    exact ⟨threshold, (hthreshold threshold).1 hframes⟩
  · refine (finished_or_isTooDeep limit env code next).resolve_left fun hfinished => ?_
    exact h _ _ (comesTo_of_finished hfinished)

section

/-- The body of the function that applies its argument to itself. -/
abbrev selfApplication : Expr :=
  .app (.literal "x") [.literal "x"]

abbrev selfApplier (cell : Nat) : Value :=
  .closure cell ["x"] selfApplication []

theorem selfApplier_leadsTo (i j next : Nat) : (Task.apply (selfApplier i) [selfApplier j] next).LeadsTo
    (.apply (selfApplier j) [selfApplier j] next) := by
  have hname : Evaluates (.literal "x") [[("x", selfApplier j)]] next (.ok (selfApplier j) next) :=
    .of_get? rfl
  exact (leadsTo_body rfl).trans (leadsTo_apply hname (.one hname))

/-- A program whose evaluation does not end. -/
abbrev endless : String :=
  "((lambda (x) (x x)) (lambda (x) (x x)))"

theorem endless_not_comesTo (next : Nat) (result : Except Fault Value) (m : Nat) :
    ¬ ComesTo [] endless next result m := by
  have hbuild : (Source.text endless).build =
      .ok (.app (.lambda ["x"] selfApplication) [.lambda ["x"] selfApplication]) := by rfl
  refine not_comesTo_of_never_ends hbuild (fun o => ?_) result m
  -- The application leads to a call of a self-applier with itself, and each such call to another.
  have hfirst : (Task.eval (.app (.lambda ["x"] selfApplication) [.lambda ["x"] selfApplication]) []
      next).LeadsTo (.apply (selfApplier next) [selfApplier (next + 1)] (next + 2)) :=
    leadsTo_apply .lambda (.one .lambda)
  refine Task.never_ends (P := fun t => ∃ i j k, t.LeadsTo (.apply (selfApplier i) [selfApplier j] k)) ?_
    ⟨next, next + 1, next + 2, hfirst⟩ o
  rintro t ⟨i, j, k, hleads⟩
  exact ⟨_, ⟨j, j, k, selfApplier_leadsTo i j k⟩, hleads⟩

/-- A program that ends keeps its answer under larger limits, and one that does not is too deep. -/
theorem limits_of_two_programs :
    ¬ HasDepthFault (answerUnder 0 [] "(incr 1)" 7).1 ∧
      ComesTo [] "(incr 1)" 7 (.ok (.int 2)) 7 ∧
      answerUnder 5000 [] "(incr 1)" 7 = (.ok (.int 2), 7) ∧
      (∀ result m, ¬ ComesTo [] endless 7 result m) ∧
      ∀ limit, IsTooDeep endless (answerUnder limit [] endless 7).1 := by
  have hbuild : (Source.text "(incr 1)").buildIn (.frames 6) =
      .ok (.app (.literal "incr") [.literal "1"]) := by rfl
  have hrun : runText 6 [] "(incr 1)" 7 = .ok (.int 2) 7 := by
    rw [runText, hbuild, EvalM.bind_run_ok (EvalM.lift_ok_run _ _)]
    rfl
  have hanswer : answerUnder 0 [] "(incr 1)" 7 = (.ok (.int 2), 7) := by
    have hle : 6 ≤ framesUnder 0 := by decide
    rw [answerUnder_eq, runText_mono hle (by rw [hrun]; trivial), hrun]
    rfl
  have hnone : ¬ HasDepthFault (answerUnder 0 [] "(incr 1)" 7).1 := by
    rw [hanswer]
    rintro ⟨fault, hfault, -⟩
    cases hfault
  obtain ⟨hkeeps, -, -, -⟩ := recursion_limit_only_cuts_off [] "(incr 1)" 7
  obtain ⟨hcomes, hlarger⟩ := hkeeps 0 hnone
  rw [hanswer] at hcomes hlarger
  obtain ⟨-, -, -, hendless⟩ := recursion_limit_only_cuts_off [] endless 7
  exact ⟨hnone, hcomes, hlarger 5000 (by decide), endless_not_comesTo 7,
    hendless (endless_not_comesTo 7)⟩

end

end MiniLisp
