import SnapshotPlan.Encoding.Decoding
import SnapshotPlan.Encoding.Emission
import SnapshotPlan.Logic.Formula
import SnapshotPlan.Oracle.Basic
import SnapshotPlan.Planner.Config

/-!
# Solving a problem

The objects of a problem are numbered, its actions encoded as clauses, an oracle asked for a model
of the clauses, and the model read back as a plan.  If the goal holds before any action, the empty
plan is the answer and the oracle is not asked; a problem that cannot be encoded is refused even
then.

## What is here

* `encodeProblem` — the numbering and the clauses.
* `Problem.toFormula` — the clauses as a formula with one variable for each object.
* `solve` — the whole way, with any oracle.
-/

set_option autoImplicit false

namespace SnapshotPlan

/-! ## Encoding a problem -/

/-- Numbers the objects of a problem and encodes its actions. -/
def encodeProblem (p : Problem) (config : Config) : Except PlanFault (Registry × List Clause) := do
  let registry ← Registry.ofProblem p
  let encoding ← encode config.maxVariables.toNat p.actions.toList registry
  return (registry, encoding.clauses)

/-- The encoding as a formula that declares one variable for each fluent and action. -/
def Problem.toFormula (p : Problem) (config : Config) : Except PlanFault Formula := do
  let (registry, clauses) ← encodeProblem p config
  return .ofClauses registry.size clauses

/-! ## Asking for a plan -/

/-- A plan, and the values of all objects from which it was read.  There are none if the oracle was
not asked. -/
structure Solution where
  plan : Plan
  valuation : Valuation
  deriving DecidableEq

/-- What comes of solving a problem. -/
inductive Outcome where
  | plan (solution : Solution)
  /-- The clauses have no model. -/
  | unsatisfiable
  deriving DecidableEq

/-- Reads the verdict on the clauses of a problem. -/
def Outcome.ofVerdict (registry : Registry) : Verdict → Except PlanFault Outcome
  | .unsatisfiable => .ok .unsatisfiable
  | .satisfiable model =>
    (registry.decode model.lits).map fun v => .plan ⟨.ofValuation v, v⟩

/-- What the answer of an oracle means for the problem. -/
def Outcome.ofAnswer (registry : Registry) : Except OracleFault Verdict → Except PlanFault Outcome
  | .error fault => .error (.oracle fault)
  | .ok verdict => Outcome.ofVerdict registry verdict

/-- Solves a problem with an oracle. -/
@[specialize]
def solve {m : Type → Type} [Monad m] (o : Oracle m) (p : Problem) (config : Config) :
    m (Except PlanFault Outcome) :=
  match encodeProblem p config with
  | .error fault => pure (.error fault)
  | .ok (registry, clauses) =>
    if p.goalHoldsInitially then pure (.ok (.plan ⟨.empty, []⟩))
    else do
      let expected := max config.expectedClauses.toNat clauses.length
      let answer ← o.consult registry.size expected clauses
      pure (Outcome.ofAnswer registry answer)

end SnapshotPlan
