/-!
# Ranking variables by their part in recent conflicts

Every variable has a score, which is raised each time it takes part in a conflict, by an amount
that grows from one conflict to the next: old conflicts fade.  The variables that wait to be
decided form a binary heap with the highest score on top; among equals the first variable wins.
-/

set_option autoImplicit false

namespace SnapshotPlan

/-- Scores, and the variables in waiting. -/
structure Ranking where
  scores : Array Nat
  /-- The amount by which a score is raised. -/
  raise : Nat
  /-- The variables in waiting, each before the two at twice its place plus one and plus two. -/
  heap : Array Nat
  /-- By variable: one plus the place in the heap, zero if it does not wait. -/
  places : Array Nat

namespace Ranking

/-- All scores are equal and nobody waits; there is room for `n` variables. -/
def blank (n : Nat) : Ranking := ⟨Array.replicate n 0, 1024, #[], Array.replicate n 0⟩

/-- The first place is to be served before the second. -/
@[inline] def before (r : Ranking) (i j : Nat) : Bool :=
  let v := r.heap.getD i 0
  let w := r.heap.getD j 0
  let s := r.scores.getD v 0
  let t := r.scores.getD w 0
  t < s || (s == t && v < w)

/-- Exchanges two places of the heap. -/
def exchange (r : Ranking) (i j : Nat) : Ranking :=
  let v := r.heap.getD i 0
  let w := r.heap.getD j 0
  { r with
    heap := (r.heap.setIfInBounds i w).setIfInBounds j v
    places := (r.places.setIfInBounds v (j + 1)).setIfInBounds w (i + 1) }

/-- Moves the variable at a place up to where it belongs. -/
def rise (r : Ranking) (i : Nat) : Ranking :=
  if i = 0 then r
  else
    let parent := (i - 1) / 2
    if r.before i parent then rise (r.exchange i parent) parent else r
termination_by i

/-- The one of two places that is to be served first, if the second exists. -/
def firstOf (r : Ranking) (i j : Nat) : Nat :=
  if j < r.heap.size && r.before j i then j else i

/-- Moves the variable at a place down to where it belongs, by at most so many steps. -/
def sink : (steps : Nat) → (r : Ranking) → (i : Nat) → Ranking
  | 0, r, _ => r
  | steps + 1, r, i =>
    let child := r.firstOf (2 * i + 1) (2 * i + 2)
    if child < r.heap.size && r.before child i then sink steps (r.exchange i child) child else r

/-- Lets a variable wait, unless it does so already. -/
def insert (r : Ranking) (v : Nat) : Ranking :=
  if r.places.getD v 0 = 0 then
    let last := r.heap.size
    rise { r with heap := r.heap.push v, places := r.places.setIfInBounds v (last + 1) } last
  else r

/-- Takes the variable on top, which is `v`, out of the heap. -/
def remove (r : Ranking) (v : Nat) : Ranking :=
  let r := r.exchange 0 (r.heap.size - 1)
  sink r.heap.size { r with heap := r.heap.pop, places := r.places.setIfInBounds v 0 } 0

/-- Serves the first variable in waiting. -/
def pop (r : Ranking) : Option Nat × Ranking :=
  match r.heap[0]? with
  | none => (none, r)
  | some v => (some v, r.remove v)

/-- Raises the score of a variable. -/
def promote (r : Ranking) (v : Nat) : Ranking :=
  let r := { r with scores := r.scores.modify v (· + r.raise) }
  match r.places.getD v 0 with
  | 0 => r
  | place + 1 => rise r place

/-- The largest amount before all scores are scaled down. -/
def ceiling : Nat := 1000000000000000

/-- Lets all scores raised so far fade a little. -/
def fade (r : Ranking) : Ranking :=
  let raise := r.raise + r.raise / 16
  if ceiling < raise then
    { r with raise := raise / 1000000000, scores := r.scores.map (· / 1000000000) }
  else { r with raise }

end Ranking

end SnapshotPlan
