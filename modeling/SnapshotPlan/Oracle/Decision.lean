import SnapshotPlan.Logic.Clause

/-!
# Decisions

A decision about a list of clauses is an assignment that satisfies it, or the knowledge that none
does.  Either comes with its proof, so whatever makes a decision makes a right one.
-/

set_option autoImplicit false

namespace SnapshotPlan

/-- What there is to know about a list of clauses: an assignment that satisfies it, or that none
does. -/
inductive Decision (cs : List Clause) where
  | satisfied (σ : Assignment) (holds : Satisfies σ cs)
  | refuted (never : ∀ σ, ¬ Satisfies σ cs)

end SnapshotPlan
