import SnapshotPlan.Duration
import SnapshotPlan.Logic.Clause

/-!
# What can go wrong with an oracle

An oracle may refuse a clause or fail to answer.  `OracleFault.message` is the wording.
-/

set_option autoImplicit false

namespace SnapshotPlan

/-- The failures of an oracle. -/
inductive OracleFault where
  /-- The clause contradicts those before it; `index` clauses had been accepted. -/
  | contradiction (index : Nat) (clause : Clause)
  /-- No answer came within the time limit. -/
  | timeout (limit : Duration)
  /-- The literal's variable exceeds the largest variable announced. -/
  | variableOutOfBounds (lit : Lit) (maxVariables : Nat)
  /-- Any other failure, in the oracle's own words. -/
  | backend (reason : String)
  deriving DecidableEq

/-- The wording of the failure. -/
def OracleFault.message : OracleFault → String
  | contradiction index clause =>
    "Contradiction detected when adding clause #" ++ toString index ++ " " ++ clause.render
  | timeout limit => "No answer from the solver within " ++ limit.render
  | variableOutOfBounds lit maxVariables =>
    "Literal " ++ lit.render ++ " refers to a variable beyond the declared maximum ("
      ++ toString maxVariables ++ ")"
  | backend reason => "SAT backend failure: " ++ reason

end SnapshotPlan
