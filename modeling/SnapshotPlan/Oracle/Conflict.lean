import SnapshotPlan.Oracle.Watching

/-!
# Learning from a conflict

When all literals of a clause fail, the clause is resolved with the reasons of its newest literals
until just one literal of the current level is left (`explain`).  Literals that the others imply
are then resolved away (`shorten`), and so are those that fail without any decision (`settle`).
What remains is a clause that would have prevented the conflict.

Which steps are taken is a matter of bookkeeping in `Marks`; every step resolves derived clauses,
so the result is derived whatever the marks say.
-/

set_option autoImplicit false

namespace SnapshotPlan

/-- What the analysis of a conflict has noted about a variable. -/
inductive Note where
  | none
  /-- Its literal is in the clause. -/
  | present
  /-- Its literal is implied by those in the clause. -/
  | implied
  /-- Its literal is not implied by those in the clause. -/
  | needed
  deriving DecidableEq

/-- The notes on all variables. -/
structure Marks where
  notes : Array Note
  /-- The variables with a note. -/
  noted : List Nat
  /-- How many literals of the current level are in the clause. -/
  pending : Nat

namespace Marks

/-- No note; there is room for `n` variables. -/
def blank (n : Nat) : Marks := ⟨Array.replicate n .none, [], 0⟩

/-- The note on a variable. -/
@[inline] def note (m : Marks) (v : Nat) : Note := m.notes.getD v .none

/-- Makes the first note on a variable. -/
def add : (m : Marks) → (v : Nat) → (n : Note) → Marks
  | ⟨notes, noted, pending⟩, v, n => ⟨notes.setIfInBounds v n, v :: noted, pending⟩

/-- One more literal of the current level is in the clause. -/
def expect : (m : Marks) → Marks
  | ⟨notes, noted, pending⟩ => ⟨notes, noted, pending + 1⟩

/-- One of the literals of the current level has been explained. -/
def settle : (m : Marks) → Marks
  | ⟨notes, noted, pending⟩ => ⟨notes, noted, pending - 1⟩

/-- No note on the variable has been made. -/
@[inline] def isFresh (m : Marks) (v : Nat) : Bool :=
  match m.note v with
  | .none => true
  | _ => false

/-- The literal of the variable is in the clause. -/
@[inline] def isPresent (m : Marks) (v : Nat) : Bool :=
  match m.note v with
  | .present => true
  | _ => false

/-- Forgets all notes. -/
def clear (m : Marks) : Marks :=
  ⟨m.noted.foldl (fun ns v => ns.setIfInBounds v .none) m.notes, [], 0⟩

/-- Notes the first `n` literals as present, except those that fail without a decision. -/
def absorb (t : Trail) (lits : Array Nat) : (n : Nat) → Marks → Marks
  | 0, m => m
  | n + 1, m =>
    let v := lits.getD n 0 / 2
    let level := t.level v
    if !m.isFresh v || level == 0 then absorb t lits n m
    else if level == t.depth then absorb t lits n (m.add v .present).expect
    else absorb t lits n (m.add v .present)

end Marks

namespace Conflict

variable {cs : List Clause}

/-- The derived clause with the given number. -/
@[inline] def clause (w : Watching cs) (id : Nat) (default : Derived cs) : Derived cs :=
  w.derived.getD id default

/-- A clause that is being derived. -/
structure Lesson (cs : List Clause) where
  derived : Derived cs
  marks : Marks
  /-- The only literal of the current level. -/
  pivot : Nat

/-- Resolves with the reasons of the first `n` literals on the trail, from the newest on, until one
literal of the current level is left. -/
def explain (w : Watching cs) (t : Trail) : (n : Nat) → Derived cs → Marks → Lesson cs
  | 0, d, m => ⟨d, m, 0⟩
  | n + 1, d, m =>
    let k := t.order.getD n 0
    if !m.isPresent (k / 2) then explain w t n d m
    else if m.pending ≤ 1 then ⟨d, m, Code.flip k⟩
    else
      let id := t.reason (k / 2) - 1
      let lits := w.litsOf id
      let m := Marks.absorb t lits lits.size m.settle
      explain w t n (d.drop (clause w id d) (Code.flip k)) m

/-- All of the first `n` literals are in the clause or implied by it, apart from the variable `v`,
as far as `check` finds out. -/
def allImplied (check : Nat → Marks → Bool × Marks) (t : Trail) (lits : Array Nat) (v : Nat) :
    (n : Nat) → Marks → Bool × Marks
  | 0, m => (true, m)
  | n + 1, m =>
    let u := lits.getD n 0 / 2
    if u == v || t.level u == 0 then allImplied check t lits v n m
    else
      match m.note u with
      | .present => allImplied check t lits v n m
      | .implied => allImplied check t lits v n m
      | .needed => (false, m)
      | .none =>
        match check u m with
        | (true, m) => allImplied check t lits v n m
        | (false, m) => (false, m)

/-- The reason of the variable shows that the clause implies its literal.  Reasons of reasons are
followed, at most so many deep. -/
def implied (w : Watching cs) (t : Trail) : (steps : Nat) → Nat → Marks → Bool × Marks
  | 0, _, m => (false, m)
  | steps + 1, v, m =>
    match t.reason v with
    | 0 => (false, m)
    | id + 1 =>
      let lits := w.litsOf id
      match allImplied (implied w t steps) t lits v lits.size m with
      | (true, m) => (true, if m.isFresh v then m.add v .implied else m)
      | (false, m) => (false, if m.isFresh v then m.add v .needed else m)

/-- How deep reasons are followed. -/
def reach : Nat := 200

/-- The variables of the clause, apart from the pivot, that it implies. -/
def redundant (w : Watching cs) (t : Trail) (pivot : Nat) :
    List Nat → Marks → List Nat × Marks
  | [], m => ([], m)
  | k :: ks, m =>
    let v := k / 2
    if k == pivot || t.level v == 0 then redundant w t pivot ks m
    else
      match implied w t reach v m with
      | (true, m) =>
        let (vs, m) := redundant w t pivot ks m
        (v :: vs, m)
      | (false, m) => redundant w t pivot ks m

/-- Resolves the clause with the reasons of variables, where it has them. -/
def resolveAll (w : Watching cs) (t : Trail) (d : Derived cs) (vs : List Nat) : Derived cs :=
  vs.foldl (fun d v => d.drop (clause w (t.reason v - 1) d) (t.failing v)) d

/-- Resolves away the literals that the others imply, the newest first. -/
def shorten (w : Watching cs) (t : Trail) (lesson : Lesson cs) : Lesson cs :=
  match redundant w t lesson.pivot lesson.derived.codes lesson.marks with
  | ([], m) => { lesson with marks := m }
  | (vs, m) =>
    let all := vs ++ m.noted.filter fun v => m.note v == .implied
    let ordered := all.mergeSort fun u v => decide (t.places.getD v 0 ≤ t.places.getD u 0)
    { lesson with derived := resolveAll w t lesson.derived ordered, marks := m }

/-- Resolves away the literals that fail without any decision. -/
def settle (w : Watching cs) (t : Trail) (d : Derived cs) : Derived cs :=
  resolveAll w t d (d.codes.filterMap fun k => if t.level (k / 2) == 0 then some (k / 2) else none)

/-- The clause to learn from a conflict with the given clause. -/
def lesson (w : Watching cs) (t : Trail) (d : Derived cs) (m : Marks) : Lesson cs :=
  let lits := d.codes.toArray
  let m := Marks.absorb t lits lits.size m
  let found := shorten w t (explain w t t.order.size d m)
  { found with derived := settle w t found.derived }

end Conflict

end SnapshotPlan
