import SnapshotPlan.Oracle.Derived
import SnapshotPlan.Oracle.Trail

/-!
# Drawing consequences

A clause of two literals or more watches two of them.  As long as neither fails, the clause leaves
a choice.  When one fails it watches another literal that does not, and if there is none the other
watched literal has to hold: it is assigned with the clause as its reason, or it fails too and the
clause is in conflict with the trail.

`Watching.propagate` draws all consequences of the literals on the trail.
-/

set_option autoImplicit false

namespace SnapshotPlan

/-- Derived clauses by number, and who watches what. -/
structure Watching (cs : List Clause) where
  derived : Array (Derived cs)
  /-- The literals of each clause. -/
  lits : Array (Array Nat)
  /-- The sum of the two watched literals of each clause. -/
  sums : Array Nat
  /-- By literal: the clauses that watch it, each followed by some other literal of it. -/
  watches : Array (Array Nat)

namespace Watching

variable {cs : List Clause}

/-- No clause yet; there is room for `n` variables. -/
def blank (n : Nat) : Watching cs := ⟨#[], #[], #[], Array.replicate (2 * n) #[]⟩

/-- The number of the next clause. -/
@[inline] def size (w : Watching cs) : Nat := w.derived.size

/-- Adds a clause that watches nothing. -/
def keep (w : Watching cs) (d : Derived cs) : Watching cs :=
  { w with derived := w.derived.push d, lits := w.lits.push d.codes.toArray, sums := w.sums.push 0 }

/-- Adds a clause that watches two of its literals. -/
def add (w : Watching cs) (d : Derived cs) (j k : Nat) : Watching cs :=
  let id := w.derived.size
  { derived := w.derived.push d
    lits := w.lits.push d.codes.toArray
    sums := w.sums.push (j + k)
    watches := (w.watches.modify j fun a => (a.push id).push k).modify k
      fun a => (a.push id).push j }

/-- The literals of the clause with the given number. -/
@[inline] def litsOf (w : Watching cs) (id : Nat) : Array Nat := w.lits.getD id #[]

/-- Among the first `n` literals one that does not fail, apart from the two given. -/
def replacement (t : Trail) (lits : Array Nat) (j k : Nat) : (n : Nat) → Option Nat
  | 0 => none
  | n + 1 =>
    let l := lits.getD n 0
    if l != j && l != k && !t.fails l then some l else replacement t lits j k n

/-- What comes of drawing consequences: the number of a clause in conflict, if there is one. -/
structure Result (cs : List Clause) where
  watching : Watching cs
  trail : Trail
  conflict : Option Nat

/-- Writes a pair into a list of watchers. -/
def write (ws : Array Nat) (j id hint : Nat) : Array Nat :=
  (ws.setIfInBounds j id).setIfInBounds (j + 1) hint

/-- Moves the last `n` pairs of a list of watchers, which begin at `i`, down to `j`, and cuts the
rest off. -/
def compact (ws : Array Nat) (i j : Nat) : (n : Nat) → Array Nat
  | 0 => ws.shrink j
  | n + 1 => compact (write ws j (ws.getD i 0) (ws.getD (i + 1) 0)) (i + 2) (j + 2) n

/-- Goes through the last `n` pairs of the watchers of the literal `f`, which fails.  They begin at
`i`; those that go on watching are collected from the front up to `j`. -/
def visit (f : Nat) (w : Watching cs) (t : Trail) (ws : Array Nat) (i j : Nat) :
    (n : Nat) → Result cs
  | 0 => ⟨{ w with watches := w.watches.setIfInBounds f (ws.shrink j) }, t, none⟩
  | n + 1 =>
    let id := ws.getD i 0
    let hint := ws.getD (i + 1) 0
    if t.holds hint then
      visit f w t (write ws j id hint) (i + 2) (j + 2) n
    else
      let other := w.sums.getD id 0 - f
      if t.holds other then
        visit f w t (write ws j id other) (i + 2) (j + 2) n
      else
        let lits := w.litsOf id
        match replacement t lits f other lits.size with
        | some l =>
          let w := { w with
            sums := w.sums.setIfInBounds id (other + l)
            watches := w.watches.modify l fun a => (a.push id).push other }
          visit f w t ws (i + 2) j n
        | none =>
          let ws := write ws j id other
          if t.fails other then
            let ws := compact ws (i + 2) (j + 2) n
            ⟨{ w with watches := w.watches.setIfInBounds f ws }, t, some id⟩
          else visit f w (t.assign other (id + 1)) ws (i + 2) (j + 2) n

/-- Draws the consequences of literals on the trail, of at most so many. -/
def propagate : (steps : Nat) → (w : Watching cs) → (t : Trail) → Result cs
  | 0, w, t => ⟨w, t, none⟩
  | steps + 1, w, t =>
    if t.head < t.order.size then
      let f := Code.flip (t.order.getD t.head 0)
      let t := { t with head := t.head + 1 }
      let ws := w.watches.getD f #[]
      let w := { w with watches := w.watches.setIfInBounds f #[] }
      match visit f w t ws 0 0 (ws.size / 2) with
      | ⟨w, t, none⟩ => propagate steps w t
      | result => result
    else ⟨w, t, none⟩

end Watching

end SnapshotPlan
