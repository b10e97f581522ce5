import SnapshotPlan.Oracle.Conflict
import SnapshotPlan.Oracle.Ranking

/-!
# The learning search

The search decides variables and draws consequences until every variable has a value or some
clause is in conflict.  From a conflict it learns a clause, goes back to the level at which the
clause leaves one choice, and goes on.  From time to time it starts again from the top with all
that it has learned, and forgets the clauses that were of little use.

* Variables with a part in recent conflicts are decided first, with their last value, or false.
* `Learner.run` is the search under a limit on the number of conflicts.  It ends with the empty
  clause derived, with a trail on which every variable has a value, or without either.
-/

set_option autoImplicit false

namespace SnapshotPlan

/-- A search under way. -/
structure Learner (cs : List Clause) where
  watching : Watching cs
  trail : Trail
  ranking : Ranking
  marks : Marks
  /-- By variable: its last value. -/
  values : Array Bool
  /-- How many literals of level zero have a reason of one literal. -/
  settled : Nat
  /-- The learned clauses that watch, each with the number of levels that it spanned. -/
  lessons : Array (Nat × Nat)
  /-- How many lessons are kept. -/
  capacity : Nat
  /-- Conflicts left before the next start. -/
  patience : Nat
  /-- How often the search has started. -/
  turn : Nat × Nat

namespace Learner

variable {cs : List Clause}

/-! ## The beginning -/

/-- One plus the largest position of a variable. -/
def room (cs : List Clause) : Nat :=
  cs.foldl (fun n c => c.lits.foldl (fun n l => max n (l.var.index + 1)) n) 0

/-- Conflicts between two starts, in the unit of the sequence of turns. -/
def unit : Nat := 64

/-- A search with no clause. -/
def blank (n : Nat) : Learner cs where
  watching := .blank n
  trail := .blank n
  ranking := .blank n
  marks := .blank n
  values := Array.replicate n false
  settled := 0
  lessons := #[]
  capacity := 2000
  patience := unit
  turn := (1, 1)

/-- The empty clause, if it is the given one, or the search after taking in the clause.  A clause
of one literal makes it true at once, unless it fails already: then the clause is in conflict. -/
def accept (s : Learner cs) (d : Derived cs) : Except (Derived cs) (Learner cs) :=
  match d.codes with
  | [] => .error d
  | [k] =>
    match s.trail.status k with
    | .holds => .ok s
    | .free =>
      let id := s.watching.size
      .ok { s with
        watching := s.watching.keep d
        trail := s.trail.assign k (id + 1)
        ranking := s.ranking.insert (k / 2) }
    | .fails => .error (d.drop (Conflict.clause s.watching (s.trail.reason (k / 2) - 1) d) k)
  | j :: k :: ks =>
    let ranking := (j :: k :: ks).foldl (fun r l => r.insert (l / 2)) s.ranking
    .ok { s with watching := s.watching.add d j k, ranking }

/-- Takes in clauses of the list. -/
def acceptAll (s : Learner cs) : (ds : List (Derived cs)) → Except (Derived cs) (Learner cs)
  | [] => .ok s
  | d :: ds =>
    match s.accept d with
    | .error e => .error e
    | .ok s => acceptAll s ds

/-- All clauses of the list as derived ones. -/
def members (cs : List Clause) : List (Derived cs) :=
  cs.attach.map fun c => .ofMember c.1 c.2

/-! ## Going down -/

/-- Draws all consequences.  Returns the number of a clause in conflict, if there is one. -/
def propagate (s : Learner cs) : Learner cs × Option Nat :=
  let ⟨w, t, ranking, marks, values, settled, lessons, capacity, patience, turn⟩ := s
  match Watching.propagate t.statuses.size w t with
  | ⟨w, t, conflict⟩ =>
    (⟨w, t, ranking, marks, values, settled, lessons, capacity, patience, turn⟩, conflict)

/-- Gives the literals of level zero, of which `n` have none yet, reasons of one literal. -/
def justify (s : Learner cs) : (n : Nat) → Learner cs
  | 0 => s
  | n + 1 =>
    let k := s.trail.order.getD s.settled 0
    let v := k / 2
    match s.watching.derived[s.trail.reason v - 1]? with
    | none => justify { s with settled := s.settled + 1 } n
    | some d =>
      let others := d.codes.filterMap fun j => if j == k then none else some (j / 2)
      let unit := Conflict.resolveAll s.watching s.trail d others
      let id := s.watching.size
      let ⟨w, t, ranking, marks, values, settled, lessons, capacity, patience, turn⟩ := s
      justify ⟨w.keep unit, t.explain v (id + 1), ranking, marks, values, settled + 1, lessons,
        capacity, patience, turn⟩ n

/-- Gives all literals reasons of one literal, if no decision has been taken. -/
def justifyTop (s : Learner cs) : Learner cs :=
  if s.trail.depth == 0 then s.justify (s.trail.order.size - s.settled) else s

/-- The next free variable to decide, among so many. -/
def next (t : Trail) : (n : Nat) → Ranking → Option Nat × Ranking
  | 0, r => (none, r)
  | n + 1, r =>
    match r.pop with
    | (none, r) => (none, r)
    | (some v, r) => if t.status (2 * v) == .free then (some v, r) else next t n r

/-- Where going down ends. -/
inductive Bottom (cs : List Clause) where
  /-- The clause with the number is in conflict. -/
  | conflict (s : Learner cs) (id : Nat)
  /-- Every variable has a value. -/
  | complete (s : Learner cs)

/-- Draws consequences and decides, at most so many times. -/
def descend : (steps : Nat) → (s : Learner cs) → Bottom cs
  | 0, s => .complete s
  | steps + 1, s =>
    match s.propagate with
    | (s, some id) => .conflict s.justifyTop id
    | (s, none) =>
      let s := s.justifyTop
      let ⟨w, t, ranking, marks, values, settled, lessons, capacity, patience, turn⟩ := s
      match next t ranking.heap.size ranking with
      | (none, ranking) =>
        .complete ⟨w, t, ranking, marks, values, settled, lessons, capacity, patience, turn⟩
      | (some v, ranking) =>
        let k := if values.getD v false then 2 * v else 2 * v + 1
        descend steps ⟨w, t.decide k, ranking, marks, values, settled, lessons, capacity, patience,
          turn⟩

/-! ## Going back -/

/-- Takes back the newest `n` literals. -/
def takeBack : (n : Nat) → (t : Trail) → (r : Ranking) → (values : Array Bool) →
    Trail × Ranking × Array Bool
  | 0, t, r, values => (t, r, values)
  | n + 1, t, r, values =>
    let k := t.order.getD (t.order.size - 1) 0
    takeBack n t.pop (r.insert (k / 2)) (values.setIfInBounds (k / 2) (k % 2 == 0))

/-- Takes back all levels above the given one. -/
def retreat (s : Learner cs) (level : Nat) : Learner cs :=
  if s.trail.depth ≤ level then s
  else
    let ⟨w, t, ranking, marks, values, settled, lessons, capacity, patience, turn⟩ := s
    match takeBack (t.order.size - t.sizeAt level) t ranking values with
    | (t, ranking, values) =>
      ⟨w, t.close level, ranking, marks, values, settled, lessons, capacity, patience, turn⟩

/-! ## Learning

The clause learned fails under the present values, and it has one literal, the pivot, of the
latest level.  Taking back all levels that the others do not need leaves the pivot as the one way
to satisfy it. -/

/-- The number of levels among the literals. -/
def span (t : Trail) (codes : List Nat) : Nat :=
  let levels := codes.map fun k => t.level (k / 2)
  (Derived.distinct (levels.mergeSort fun i j => decide (i ≤ j))).length

/-- Among the literals other than the pivot one of the highest level. -/
def second? (t : Trail) (pivot : Nat) (codes : List Nat) : Option Nat :=
  codes.foldl (fun best k =>
    if k == pivot then best
    else
      match best with
      | none => some k
      | some j => if t.level (j / 2) < t.level (k / 2) then some k else best) none

/-- Takes in a learned clause whose literals all fail: goes back to where it leaves only the pivot,
and makes that true. -/
def takeIn (s : Learner cs) (d : Derived cs) (pivot : Nat) : Learner cs :=
  let id := s.watching.size
  match second? s.trail pivot d.codes with
  | none =>
    let s := s.retreat 0
    { s with watching := s.watching.keep d, trail := s.trail.assign pivot (id + 1) }
  | some k =>
    let spanned := span s.trail d.codes
    let level := s.trail.level (k / 2)
    let s := s.retreat level
    { s with
      watching := s.watching.add d pivot k
      trail := s.trail.assign pivot (id + 1)
      lessons := s.lessons.push (id, spanned) }

/-- Learns from a conflict with the given clause: the clause learned, and the search that has taken
it in. -/
def learn (s : Learner cs) (d : Derived cs) : Derived cs × Learner cs :=
  let ⟨w, t, ranking, marks, values, settled, lessons, capacity, patience, turn⟩ := s
  let ⟨d, m, pivot⟩ := Conflict.lesson w t d marks
  let ranking := (m.noted.foldl Ranking.promote ranking).fade
  let s : Learner cs :=
    ⟨w, t, ranking, m.clear, values, settled, lessons, capacity, patience - 1, turn⟩
  (d, s.takeIn d pivot)

/-! ## Starting again

Starts come in turns of uneven length, so that short and long attempts alternate.  A start keeps
the values and the ranking, and so it does not begin from nothing. -/

/-- The turn after the given one, in the sequence 1, 1, 2, 1, 1, 2, 4, 1, …: the second number is
its length. -/
def nextTurn : Nat × Nat → Nat × Nat
  | (n, length) => if n % (2 * length) == length then (n + 1, 1) else (n, 2 * length)

/-- Lets go of clauses: they watch nothing any more. -/
def forget (w : Watching cs) (ids : List Nat) : Watching cs :=
  let lits := ids.foldl (fun ls id => ls.setIfInBounds id #[]) w.lits
  let keeps := fun (ws : Array Nat) =>
    (List.range (ws.size / 2)).foldl (fun kept i =>
      let id := ws.getD (2 * i) 0
      if (lits.getD id #[]).isEmpty then kept else (kept.push id).push (ws.getD (2 * i + 1) 0)) #[]
  { w with lits, watches := w.watches.map keeps }

/-- Forgets half of the lessons, those that spanned the most levels, if there are too many. -/
def tidy (s : Learner cs) : Learner cs :=
  if s.lessons.size < s.capacity then s
  else
    let ranked := s.lessons.toList.mergeSort fun a b => decide (a.2 ≤ b.2)
    let half := ranked.length / 2
    let gone := (ranked.drop half).filter fun a => 2 < a.2
    let kept := ranked.take half ++ (ranked.drop half).filter fun a => a.2 ≤ 2
    { s with
      watching := forget s.watching (gone.map Prod.fst)
      lessons := (kept.mergeSort fun a b => decide (a.1 ≤ b.1)).toArray
      capacity := s.capacity + 300 }

/-- Starts again from the top when it is time to. -/
def refresh (s : Learner cs) : Learner cs :=
  if s.patience == 0 then
    let turn := nextTurn s.turn
    tidy { s.retreat 0 with turn, patience := unit * turn.2 }
  else s

/-! ## The search -/

/-- How the search ends. -/
inductive Ending (cs : List Clause) where
  /-- A derived clause, which is empty if the search is to prove anything. -/
  | derived (d : Derived cs)
  /-- An assignment under which no clause is in conflict. -/
  | assigned (σ : Assignment)
  /-- There were more conflicts than allowed. -/
  | gaveUp

/-- Searches until there have been so many conflicts. -/
def run : (conflicts : Nat) → (s : Learner cs) → Ending cs
  | 0, _ => .gaveUp
  | conflicts + 1, s =>
    match s.descend (s.values.size + 1) with
    | .complete s => .assigned s.trail.assignment
    | .conflict s id =>
      match s.watching.derived[id]? with
      | none => .gaveUp
      | some d =>
        if s.trail.depth == 0 then .derived (Conflict.settle s.watching s.trail d)
        else
          let (d, s) := s.learn d
          if d.codes.isEmpty then .derived d else run conflicts s.refresh

/-- Searches for an assignment that satisfies the list, up to so many conflicts. -/
def search (conflicts : Nat) (cs : List Clause) : Ending cs :=
  match (blank (room cs) : Learner cs).acceptAll (members cs) with
  | .error d => .derived d
  | .ok s => run conflicts s

end Learner

end SnapshotPlan
