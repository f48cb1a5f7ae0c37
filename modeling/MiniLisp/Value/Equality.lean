import MiniLisp.Value.Basic

/-!
Equality of values. Pairs are equal if their parts are, closures if they were made in the same cell,
and values of different kinds never; in particular no boolean equals a number. A looser equality
counts true as one and false as zero.
-/

namespace MiniLisp.Value

/-- Equality of values, as programs see it. -/
def isEqual : Value → Value → Bool
  | .int m, .int n => m == n
  | .bool p, .bool q => p == q
  | .symbol s, .symbol t => s == t
  | .text s, .text t => s == t
  | .nil, .nil => true
  | .pair _ h t, .pair _ h' t' => h.isEqual h' && t.isEqual t'
  | .primitive p, .primitive q => p == q
  | .closure i _ _ _, .closure j _ _ _ => i == j
  | _, _ => false

@[simp] theorem isEqual_refl (a : Value) : a.isEqual a = true := by
  induction a with
  | pair _ _ _ hh ht => simp [isEqual, hh, ht]
  | _ => simp [isEqual]

/-- The answer of `isEqual`, found without looking into parts that are one object in memory. -/
def agree : (a b : Value) → { r : Bool // r = a.isEqual b }
  | .pair i h t, .pair j h' t' =>
    have parts : ((h.agree h').1 && (t.agree t').1) = (pair i h t).isEqual (pair j h' t') := by
      rw [(h.agree h').2, (t.agree t').2, isEqual]
    ⟨withPtrEq (pair i h t) (pair j h' t') (fun _ => (h.agree h').1 && (t.agree t').1)
      (fun same => by rw [parts, same, isEqual_refl]), parts⟩
  | a, b => ⟨a.isEqual b, rfl⟩

/-- Equality of values, with shared parts passed over. -/
def isEqualShared (a b : Value) : Bool :=
  (agree a b).1

@[simp] theorem isEqualShared_eq (a b : Value) : a.isEqualShared b = a.isEqual b :=
  (agree a b).2

/-- How many frames deep a comparison goes: one for each step to a head or a tail. A pair is not
looked into beside itself, and tails are reached only if the heads are equal. -/
def comparisonFrames : Value → Value → Nat
  | .pair i h t, .pair j h' t' =>
    if i = j then 1
    else 1 + max (h.comparisonFrames h') (if h.isEqualShared h' then t.comparisonFrames t' else 0)
  | _, _ => 1

/-- Equality that counts true as one and false as zero. -/
def looselyEqual : Value → Value → Bool
  | .int m, .int n => m == n
  | .int m, .bool q => m == q.toNat
  | .bool p, .int n => (p.toNat : Int) == n
  | .bool p, .bool q => p == q
  | .symbol s, .symbol t => s == t
  | .text s, .text t => s == t
  | .nil, .nil => true
  | .pair _ h t, .pair _ h' t' => h.looselyEqual h' && t.looselyEqual t'
  | .primitive p, .primitive q => p == q
  | .closure i _ _ _, .closure j _ _ _ => i == j
  | _, _ => false

end MiniLisp.Value
