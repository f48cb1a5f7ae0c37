import MiniLisp.Proofs.Scopes.CallFrame
import MiniLisp.Proofs.Reachability.Closures
import MiniLisp.Proofs.Evaluation.Computation
import MiniLisp.Workspace

/-!
The queries of environments. Each of them goes through the frames on its own, and they agree: on which frame
is the first to bind a name, and on the value there (`Workspace.queriesAgree`).
-/

namespace MiniLisp

namespace Environment

/-- The first frame that binds a name, counted from the innermost, with the value there; or that no frame
binds it. -/
inductive FirstBinding (env : Environment) (name : String) : Option (Nat × Value) → Prop
  | found {i : Nat} {frame : Frame} {v : Value} (hframe : env[i]? = some frame)
      (hvalue : (name, v) ∈ frame)
      (hfirst : ∀ j < i, ∀ earlier : Frame, env[j]? = some earlier → name ∉ earlier.names) :
      FirstBinding env name (some (i, v))
  | missing (h : ∀ frame ∈ env, name ∉ Frame.names frame) : FirstBinding env name none

/-- In front of an environment, a frame that does not bind the name moves its first binding up. -/
theorem FirstBinding.cons {env : Environment} {name : String} {frame : Frame} {i : Nat} {v : Value}
    (h : env.FirstBinding name (some (i, v))) (hframe : name ∉ frame.names) :
    Environment.FirstBinding (frame :: env) name (some (i + 1, v)) := by
  cases h with
  | found hfound hvalue hfirst =>
    refine .found hfound hvalue fun j hj earlier hearlier => ?_
    cases j with
    | zero =>
      cases hearlier
      exact hframe
    | succ j => exact hfirst j (Nat.lt_of_succ_lt_succ hj) earlier hearlier

/-- Searching for the frame and searching for the value find the first binding. -/
theorem exists_firstBinding (env : Environment) (name : String) :
    ∃ found, env.FirstBinding name found ∧ env.find? name = found.map Prod.fst ∧
      env.get? name = found.map Prod.snd := by
  induction env with
  | nil => exact ⟨none, .missing (by simp), rfl, rfl⟩
  | cons frame env ih =>
    rw [find?, List.findIdx?_cons, get?_cons]
    cases hframe : frame.get? name with
    | some v =>
      refine ⟨some (0, v), .found rfl (Frame.mem_of_get? hframe) ?_, rfl, rfl⟩
      intro j hj
      cases hj
    | none =>
      have hnot := Frame.get?_eq_none_iff.1 hframe
      obtain ⟨found, hfound, hfind, hget⟩ := ih
      rw [find?] at hfind
      cases found with
      | none =>
        cases hfound with
        | missing h =>
          refine ⟨none, .missing (List.forall_mem_cons.2 ⟨hnot, h⟩), ?_, ?_⟩
          · rw [hfind]
            rfl
          · rw [hget]
            rfl
      | some found =>
        refine ⟨some (found.1 + 1, found.2), hfound.cons hnot, ?_, ?_⟩
        · rw [hfind]
          rfl
        · rw [hget]
          rfl

/-- The frames of the environment bind each of their names once. -/
def NamesOnce (env : Environment) : Prop :=
  ∀ frame ∈ env, (Frame.names frame).Nodup

theorem namesOnce_nil : NamesOnce [] := by
  simp [NamesOnce]

theorem NamesOnce.extend {env : Environment} (h : env.NamesOnce) (bindings : List (String × Value)) :
    (env.extend bindings).NamesOnce := by
  refine List.forall_mem_cons.2 ⟨?_, h⟩
  exact Frame.nodup_names_ofBindings bindings

/-- After extending an environment a name means its last new value, or what it meant before. -/
theorem lookup_extend (env : Environment) (bindings : List (String × Value)) (name : String) :
    (env.extend bindings).lookup name = (bindings.reverse.lookup name).elim (env.lookup name) .ok := by
  rw [lookup, extend, get?_cons, Frame.get?_ofBindings]
  cases bindings.reverse.lookup name with
  | some v => rfl
  | none => rw [Option.none_or, Option.elim_none, lookup]

end Environment

namespace Workspace

variable {frames : Nat} {w w' : Workspace} {s : Step}

theorem answer_of_ok {a : Answer} (h : step frames s w = .ok a w') : answer frames s w = (.ok a, w') := by
  rw [answer, h]

theorem answer_of_error {fault : Fault} (h : step frames s w = .error fault w') :
    answer frames s w = (.error fault, w') := by
  rw [answer, h]

theorem step_lookup (frames : Nat) (w : Workspace) (name wanted : String) :
    step frames (.lookup name wanted) w =
      (do
        let v ← (w.env name).lookup wanted
        pure (.value v) : WorkM Answer) w := rfl

theorem answer_lookup (frames : Nat) (w : Workspace) (name wanted : String) :
    answer frames (.lookup name wanted) w = (Answer.value <$> (w.env name).lookup wanted, w) := by
  have hstep := step_lookup frames w name wanted
  cases h : (w.env name).lookup wanted with
  | ok v =>
    rw [h] at hstep
    exact answer_of_ok hstep
  | error fault =>
    rw [h] at hstep
    exact answer_of_error hstep

theorem answer_contains (frames : Nat) (w : Workspace) (name wanted : String) :
    answer frames (.contains name wanted) w = (.ok (.contains ((w.env name).contains wanted)), w) := rfl

theorem answer_find (frames : Nat) (w : Workspace) (name wanted : String) :
    answer frames (.find name wanted) w = (.ok (.depth ((w.env name).find? wanted)), w) := rfl

theorem answer_frames (frames : Nat) (w : Workspace) (name : String) :
    answer frames (.frames name) w = (.ok (.frames (w.env name)), w) := rfl

/-- What the queries answer of an environment with that chain of frames. They leave the workspace as it is. -/
structure QueriesAgree (room : Nat) (w : Workspace) (name : String) (chain : Environment) : Prop where
  /-- The frames are those of the chain, so their number is its length. -/
  frames : answer room (.frames name) w = (.ok (.frames chain), w)
  once : chain.NamesOnce
  names (wanted : String) : ∃ found, chain.FirstBinding wanted found ∧
    answer room (.find name wanted) w = (.ok (.depth (found.map Prod.fst)), w) ∧
    answer room (.contains name wanted) w = (.ok (.contains found.isSome), w) ∧
    answer room (.lookup name wanted) w =
      (found.elim (.error (.unbound wanted)) fun binding => .ok (.value binding.2), w)

/-- The queries of an environment whose frames bind their names once agree. -/
theorem queriesAgree (room : Nat) {w : Workspace} {name : String} (h : (w.env name).NamesOnce) :
    QueriesAgree room w name (w.env name) where
  frames := answer_frames room w name
  once := h
  names wanted := by
    obtain ⟨found, hfound, hfind, hget⟩ := (w.env name).exists_firstBinding wanted
    refine ⟨found, hfound, ?_, ?_, ?_⟩
    · rw [answer_find, hfind]
    · rw [answer_contains, Environment.contains, hfind, Option.isSome_map]
    · rw [answer_lookup, Environment.lookup, hget]
      cases found <;> rfl

end Workspace

end MiniLisp
