import MiniLisp.Fault

/-!
Headroom: how many nested calls still fit on the stack. A call below takes its frames off, and a
call without a frame left cannot be entered. A fault is reported from where it arises, so writing what
its message shows has to fit as well.
-/

namespace MiniLisp

/-- The room that nested calls have. -/
inductive Headroom where
  | unlimited
  | frames (n : Nat)
  deriving DecidableEq, Repr

namespace Headroom

/-- The headroom of a call that is `depth` frames further down. -/
def below (depth : Nat) : Headroom → Headroom
  | .unlimited => .unlimited
  | .frames n => .frames (n - depth)

/-- Whether so many frames fit. -/
def holds (needed : Nat) : Headroom → Bool
  | .unlimited => true
  | .frames n => needed ≤ n

/-- Enters a call: refused without a frame for it. -/
def enter (room : Headroom) : Except Fault Unit :=
  if room.holds 1 then .ok () else .error .outOfFrames

/-- The fault that is reported where showing its parts takes that many frames: itself if they fit. -/
def report (room : Headroom) (needed : Nat) (fault : Fault) : Fault :=
  if room.holds needed then fault else .outOfFrames

@[simp] theorem below_unlimited (depth : Nat) : below depth .unlimited = .unlimited := rfl

@[simp] theorem below_frames (depth n : Nat) : below depth (.frames n) = .frames (n - depth) := rfl

@[simp] theorem holds_unlimited (needed : Nat) : holds needed .unlimited = true := rfl

@[simp] theorem holds_frames (needed n : Nat) : holds needed (.frames n) = decide (needed ≤ n) :=
  rfl

@[simp] theorem enter_unlimited : enter .unlimited = .ok () := rfl

@[simp] theorem report_unlimited (needed : Nat) (fault : Fault) :
    report .unlimited needed fault = fault := rfl

end Headroom

end MiniLisp
