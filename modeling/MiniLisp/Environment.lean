import MiniLisp.Value.Printer

/-!
Environments: chains of frames, innermost first. A name means what the innermost frame that binds it
says. Frames are never changed; a new scope is a new frame in front.
-/

namespace MiniLisp

namespace Frame

/-- Binds a name: in its place if the frame has it already, and at the end otherwise. -/
def insert (name : String) (value : Value) : Frame → Frame
  | [] => [(name, value)]
  | (n, v) :: rest => if n = name then (name, value) :: rest else (n, v) :: insert name value rest

/-- The frame of several bindings: a repeated name keeps its first place and its last value. -/
def ofBindings (bindings : List (String × Value)) : Frame :=
  bindings.foldl (fun frame (name, value) => frame.insert name value) []

/-- The value that the frame binds to a name. -/
def get? (frame : Frame) (name : String) : Option Value :=
  frame.lookup name

/-- The names that the frame binds, in order. -/
def names (frame : Frame) : List String :=
  frame.map Prod.fst

/-- The debugging form of a frame. -/
def debugForm (frame : Frame) : Except DigitLimit String := do
  let bindings ← frame.mapM fun (name, value) => do
    let shown ← value.debugForm
    .ok (name ++ ": " ++ shown)
  .ok ("\x7b" ++ Text.commaSeparated bindings ++ "\x7d")

@[simp] theorem get?_nil (name : String) : get? [] name = none := rfl

theorem get?_cons (name : String) (value : Value) (rest : Frame) (wanted : String) :
    get? ((name, value) :: rest) wanted = if wanted = name then some value else get? rest wanted := by
  rw [get?, List.lookup_cons]
  by_cases h : wanted = name
  · simp [h]
  · rw [if_neg h, beq_eq_false_iff_ne.2 h, get?]

/-- A new binding answers for its own name and for no other. -/
theorem get?_insert (frame : Frame) (name : String) (value : Value) (wanted : String) :
    (frame.insert name value).get? wanted =
      if wanted = name then some value else frame.get? wanted := by
  fun_induction frame.insert name value with
  | case1 => rw [get?_cons]
  | case2 v rest =>
    rw [get?_cons, get?_cons]
    split <;> rfl
  | case3 n v rest hn ih =>
    rw [get?_cons, get?_cons, ih]
    by_cases h : wanted = n
    · rw [if_pos h, if_pos h, if_neg (h ▸ hn)]
    · rw [if_neg h, if_neg h]

/-- A name that the frame has keeps its place, and a new one comes last. -/
theorem names_insert (frame : Frame) (name : String) (value : Value) :
    (frame.insert name value).names =
      if name ∈ frame.names then frame.names else frame.names ++ [name] := by
  fun_induction frame.insert name value with
  | case1 => simp [names]
  | case2 v rest => simp [names]
  | case3 n v rest hn ih =>
    have hn' : ¬ name = n := fun h => hn h.symm
    simp only [names, List.map_cons, List.mem_cons, hn', false_or] at ih ⊢
    rw [ih]
    by_cases hm : name ∈ rest.map Prod.fst <;> simp [hm]

theorem nodup_names_insert {frame : Frame} (h : frame.names.Nodup) (name : String)
    (value : Value) : (frame.insert name value).names.Nodup := by
  rw [names_insert]
  split
  · exact h
  · next hn =>
    refine List.nodup_append.2 ⟨h, by simp, fun m hm k hk e => hn ?_⟩
    rw [← List.mem_singleton.1 hk, ← e]
    exact hm

end Frame

namespace Environment

/-- The environment with one more frame in front. -/
def extend (env : Environment) (bindings : List (String × Value)) : Environment :=
  Frame.ofBindings bindings :: env

/-- The environment of one frame. -/
def ofBindings (bindings : List (String × Value)) : Environment :=
  extend [] bindings

/-- The position of the innermost frame that binds a name. -/
def find? (env : Environment) (name : String) : Option Nat :=
  env.findIdx? fun frame => (frame.get? name).isSome

/-- The value of a name in the innermost frame that binds it. -/
def get? (env : Environment) (name : String) : Option Value :=
  env.findSome? fun frame => frame.get? name

theorem get?_cons (frame : Frame) (env : Environment) (name : String) :
    get? (frame :: env) name = (frame.get? name).or (get? env name) := by
  rw [get?, List.findSome?_cons]
  cases frame.get? name <;> rfl

/-- Whether some frame binds the name. -/
def contains (env : Environment) (name : String) : Bool :=
  (env.find? name).isSome

/-- A short text of an environment: its innermost frame, and a mark if there are more. -/
def summary : Environment → Except DigitLimit String
  | [] => .ok ""
  | [frame] => frame.debugForm
  | frame :: _ :: _ => (· ++ " -> ...") <$> frame.debugForm

/-- The debugging form of an environment, with all its frames. -/
def debugForm (env : Environment) : Except DigitLimit String := do
  let frames ← env.mapM Frame.debugForm
  .ok ("<Environment chain: " ++ " -> ".intercalate frames ++ ">")

end Environment

end MiniLisp
