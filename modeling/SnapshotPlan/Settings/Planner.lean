import SnapshotPlan.Planner.Config
import SnapshotPlan.Settings.Parameter

/-!
# The planner's parameters

Three environment variables configure the planner: `SATPLAN_MAX_VARIABLES`,
`SATPLAN_EXPECTED_CLAUSES` and `SATPLAN_TIMEOUT_SECS`.  Each is decided once for a process.  A
timeout of zero seconds stands for no time limit.
-/

set_option autoImplicit false

namespace SnapshotPlan

/-- The parameters of a process. -/
structure PlannerParameters where
  maxVariables : Parameter UInt32
  expectedClauses : Parameter UInt64
  timeoutSecs : Parameter UInt64

namespace PlannerParameters

/-- The parameters of a new process. -/
def fresh : PlannerParameters where
  maxVariables := .undecided "SATPLAN_MAX_VARIABLES" "1000000"
  expectedClauses := .undecided "SATPLAN_EXPECTED_CLAUSES" "500000"
  timeoutSecs := .undecided "SATPLAN_TIMEOUT_SECS" "0"

/-- The time limit that a number of seconds stands for. -/
def timeLimit (secs : UInt64) : Option Duration :=
  if secs = 0 then none else some (.ofSecs secs.toNat)

/-- Reads all parameters into a configuration.  Returns it and the parameters after. -/
def config (ps : PlannerParameters) (env : Environment) :
    Except ParameterFault Config × PlannerParameters :=
  let secs := ps.timeoutSecs.get env
  let maxVariables := ps.maxVariables.get env
  let expectedClauses := ps.expectedClauses.get env
  let config := do
    let timeout := timeLimit (← secs.1)
    return { timeout, maxVariables := ← maxVariables.1, expectedClauses := ← expectedClauses.1 }
  (config, ⟨maxVariables.2, expectedClauses.2, secs.2⟩)

end PlannerParameters

end SnapshotPlan
