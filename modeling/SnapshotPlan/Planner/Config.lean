import SnapshotPlan.Duration

/-!
# The configuration of the planner

How many variables a problem may need, how many clauses to announce to the oracle at least, and
how long to wait for its verdict.
-/

set_option autoImplicit false

namespace SnapshotPlan

/-- The limits under which a problem is solved. -/
structure Config where
  maxVariables : UInt32
  expectedClauses : UInt64
  timeout : Option Duration
  deriving DecidableEq

end SnapshotPlan
