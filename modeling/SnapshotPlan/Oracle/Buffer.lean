import Std.Data.HashMap
import SnapshotPlan.Oracle.Basic
import SnapshotPlan.Oracle.Reach

/-!
# Collecting clauses, and the built-in oracle

Clauses are collected before anything is searched.  A clause with a variable beyond the announced
maximum is refused, and so is one that cannot be satisfied on its face: the empty clause, and a
clause of one literal if the last such clause about the same variable had the opposite sign.  The
sign of a clause of one literal is remembered even if the clause is refused.

`Buffer.verdict` decides the clauses that were accepted.  Without a time limit it waits for
`Decision.reach`, however long that takes.  Under a limit a search runs beside the caller, who waits
for it no longer than that.  What comes of the waiting is up to the clock and the system, which a
program does not control, so the timed search is a parameter: a `TimedSearch` may come to a decision
or not, and may act on the world `m` as it likes.  `searchOracle` packs all this as an oracle.
-/

set_option autoImplicit false

namespace SnapshotPlan

/-! ## Searching under a time limit

Whoever waits for a search that runs beside him gets its decision, or learns why there is none.  A
`Decision` carries its own proof, so a timed search can be late but not wrong. -/

/-- What comes of waiting for a search. -/
inductive Awaited (cs : List Clause) where
  /-- The search came to its decision in time. -/
  | decided (d : Decision cs)
  /-- The time was over first. -/
  | late
  /-- The search ended without an answer. -/
  | lost
  /-- The search could not be started, for the given reason. -/
  | unstarted (reason : String)

/-- A search that is waited for no longer than the limit. -/
abbrev TimedSearch (m : Type → Type) : Type := Duration → (cs : List Clause) → m (Awaited cs)

/-- The timed search that is late whatever the limit. -/
def TimedSearch.alwaysLate {m : Type → Type} [Monad m] : TimedSearch m := fun _ _ => pure .late

/-! ## Collecting clauses -/

/-- The clauses accepted so far, in order, and what is remembered about clauses of one literal. -/
structure Buffer where
  maxVariables : Nat
  limit : Option Duration
  accepted : Array Clause
  /-- The sign of the last clause of one literal about each variable. -/
  units : Std.HashMap Var Bool

namespace Buffer

/-- No clause yet. -/
def blank (maxVariables : Nat) (limit : Option Duration) : Buffer :=
  ⟨maxVariables, limit, #[], ∅⟩

/-- The clauses accepted so far. -/
def clauses (b : Buffer) : List Clause := b.accepted.toList

/-- The first literal of the clause whose variable is beyond the maximum. -/
def firstOutside? (b : Buffer) (c : Clause) : Option Lit :=
  c.lits.find? fun l => b.maxVariables < l.var.id

/-- The clause, alone or after an opposite one of one literal, cannot be satisfied. -/
def contradicts (b : Buffer) (c : Clause) : Bool :=
  match c.lits with
  | [] => true
  | [l] => b.units[l.var]?.any (· != l.positive)
  | _ => false

/-- Remembers the sign of a clause of one literal. -/
def remember (b : Buffer) (c : Clause) : Buffer :=
  match c.lits with
  | [l] => { b with units := b.units.insert l.var l.positive }
  | _ => b

/-- Offers a clause.  Returns whether it was accepted, and what is collected afterwards. -/
def add (b : Buffer) (c : Clause) : Except OracleFault Unit × Buffer :=
  match b.firstOutside? c with
  | some l => (.error (.variableOutOfBounds l b.maxVariables), b)
  | none =>
    if b.contradicts c then (.error (.contradiction b.accepted.size c), b.remember c)
    else
      let b := b.remember c
      (.ok (), { b with accepted := b.accepted.push c })

/-- The values of the variables `1, …, n` under the assignment, those that no clause uses taken as
false. -/
def usedValues (n : Nat) (cs : List Clause) (σ : Assignment) : Array Bool :=
  (cs.flatMap Clause.lits).foldl (fun values l => values.setIfInBounds l.var.index (σ l.var))
    (Array.replicate n false)

/-- The verdict that a decision about the accepted clauses amounts to. -/
def verdictOf (b : Buffer) : Decision b.clauses → Verdict
  | .satisfied σ _ => .satisfiable (.ofValues (usedValues b.maxVariables b.clauses σ).toList)
  | .refuted _ => .unsatisfiable

/-- The answer that waiting under the limit amounts to. -/
def answerTo (b : Buffer) (limit : Duration) : Awaited b.clauses → Except OracleFault Verdict
  | .decided d => .ok (b.verdictOf d)
  | .late => .error (.timeout limit)
  | .lost => .error (.backend "Solver thread terminated without an answer")
  | .unstarted reason => .error (.backend ("Could not start solver thread: " ++ reason))

/-- Decides the accepted clauses, under the time limit if there is one. -/
def verdict {m : Type → Type} [Monad m] (search : TimedSearch m) (b : Buffer) :
    m (Except OracleFault Verdict) :=
  match b.limit with
  | none => pure (.ok (b.verdictOf (.reach b.clauses)))
  | some limit => b.answerTo limit <$> search limit b.clauses

end Buffer

/-- The oracle that collects clauses and searches, under an optional time limit. -/
def searchOracle {m : Type → Type} [Monad m] (search : TimedSearch m) (limit : Option Duration) :
    Oracle m where
  Instance := Buffer
  newInstance := fun maxVariables _ => pure (Buffer.blank maxVariables limit)
  addClause := fun b c =>
    let (answer, b) := b.add c
    pure (answer.map fun _ => b)
  verdict := Buffer.verdict search

end SnapshotPlan
