import SnapshotPlan.Oracle.Learner
import SnapshotPlan.Oracle.Splitting

/-!
# Reaching a decision

`Decision.attempt` lets the learning search look for an answer up to a number of conflicts.
`Decision.reach` always comes to a decision: should the learning search end without one, the clauses
are decided by splitting.

Nothing is taken on trust: an assignment is checked against the clauses, and a refutation is the
empty clause among the derived ones.
-/

set_option autoImplicit false

namespace SnapshotPlan.Decision

/-- What the end of a learning search proves. -/
def ofEnding {cs : List Clause} : Learner.Ending cs → Option (Decision cs)
  | .derived d =>
    if h : d.codes = [] then some (.refuted (d.not_satisfies_of_codes_nil h)) else none
  | .assigned σ => if h : Satisfies σ cs then some (.satisfied σ h) else none
  | .gaveUp => none

/-- The largest number of variables for which tables are set up. -/
def roomLimit : Nat := 20000000

/-- The decision that a search comes to within so many conflicts, if it does.  Clauses with larger
variables than there are tables for are decided by splitting. -/
def attempt (conflicts : Nat) (cs : List Clause) : Option (Decision cs) :=
  if roomLimit < Learner.room cs then some (bySplitting cs)
  else ofEnding (Learner.search conflicts cs)

/-- The number of conflicts after which the learning search has had its chance. -/
def patience : Nat := 1000000000

/-- Decides the clauses. -/
def reach (cs : List Clause) : Decision cs :=
  match attempt patience cs with
  | some d => d
  | none => bySplitting cs

end SnapshotPlan.Decision
