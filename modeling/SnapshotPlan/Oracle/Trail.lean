import SnapshotPlan.Logic.Code

/-!
# The trail of a search

A search makes literals true one after another, and the trail remembers them: in which order, at
which level, and for what reason.  A level begins with each decision; what holds without any is at
level zero.  The reason of a literal is the clause that left it as the only choice, and a decision
has none.

Literals are known by their codes and variables by their positions; the tables are large enough for
all that occur.
-/

set_option autoImplicit false

namespace SnapshotPlan

/-- What the trail says of a literal. -/
inductive Status where
  | free
  | holds
  | fails
  deriving DecidableEq

/-- The literals that hold, and how they came to. -/
structure Trail where
  /-- By literal. -/
  statuses : Array Status
  /-- By variable, where it is not free. -/
  levels : Array Nat
  /-- By variable, where it is not free: one plus the number of the clause, zero for a decision. -/
  reasons : Array Nat
  /-- By variable, where it is not free: the place in `order`. -/
  places : Array Nat
  /-- The literals that hold, the oldest first. -/
  order : Array Nat
  /-- For each level from one on, how many literals held before it. -/
  starts : Array Nat
  /-- How many of the literals have had their consequences drawn. -/
  head : Nat

namespace Trail

/-- Nothing holds yet; there is room for `n` variables. -/
def blank (n : Nat) : Trail where
  statuses := Array.replicate (2 * n) .free
  levels := Array.replicate n 0
  reasons := Array.replicate n 0
  places := Array.replicate n 0
  order := #[]
  starts := #[]
  head := 0

/-- What is known of a literal. -/
@[inline] def status (t : Trail) (k : Nat) : Status := t.statuses.getD k .free

/-- The literal holds. -/
@[inline] def holds (t : Trail) (k : Nat) : Bool :=
  match t.status k with
  | .holds => true
  | _ => false

/-- The literal fails. -/
@[inline] def fails (t : Trail) (k : Nat) : Bool :=
  match t.status k with
  | .fails => true
  | _ => false

/-- The level of a variable. -/
@[inline] def level (t : Trail) (v : Nat) : Nat := t.levels.getD v 0

/-- The reason of a variable. -/
@[inline] def reason (t : Trail) (v : Nat) : Nat := t.reasons.getD v 0

/-- The level at hand. -/
@[inline] def depth (t : Trail) : Nat := t.starts.size

/-- Makes a literal true at the level at hand. -/
def assign (t : Trail) (k reason : Nat) : Trail :=
  let v := k / 2
  { t with
    statuses := (t.statuses.setIfInBounds k .holds).setIfInBounds (Code.flip k) .fails
    levels := t.levels.setIfInBounds v t.starts.size
    reasons := t.reasons.setIfInBounds v reason
    places := t.places.setIfInBounds v t.order.size
    order := t.order.push k }

/-- Begins a new level with a decision. -/
def decide (t : Trail) (k : Nat) : Trail :=
  assign { t with starts := t.starts.push t.order.size } k 0

/-- Gives a variable another reason. -/
def explain (t : Trail) (v reason : Nat) : Trail :=
  { t with reasons := t.reasons.setIfInBounds v reason }

/-- Takes back the newest literal. -/
def pop (t : Trail) : Trail :=
  let k := t.order.getD (t.order.size - 1) 0
  { t with
    statuses := (t.statuses.setIfInBounds k .free).setIfInBounds (Code.flip k) .free
    order := t.order.pop }

/-- How many literals stay when all levels above the given one are taken back. -/
def sizeAt (t : Trail) (level : Nat) : Nat := t.starts.getD level t.order.size

/-- Closes all levels above the given one, whose literals have been taken back. -/
def close (t : Trail) (level : Nat) : Trail :=
  { t with starts := t.starts.shrink level, head := t.order.size }

/-- The literal of a variable that fails. -/
def failing (t : Trail) (v : Nat) : Nat := Code.flip (t.order.getD (t.places.getD v 0) 0)

/-- The assignment that the trail stands for; a free variable is false. -/
def assignment (t : Trail) : Assignment := fun v => t.holds (2 * v.index)

end Trail

end SnapshotPlan
