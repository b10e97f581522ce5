import SnapshotPlan.World.FluentSet

/-!
# Conditions, effects and initial states

Each of the three speaks of two sets of fluents, and each to another purpose.  A condition asks
for fluents that are true and fluents that are false; an effect makes fluents true and fluents
false; an initial state reports which fluents are known to be true and known to be false.

`Condition.HoldsIn` is the meaning of a condition over the set of true fluents.  A set may share
fluents with its partner: a condition that asks for a fluent both ways simply never holds.
-/

set_option autoImplicit false

namespace SnapshotPlan

/-! ## Conditions -/

/-- Fluents that have to be true and fluents that have to be false. -/
structure Condition where
  positive : FluentSet
  negative : FluentSet
  deriving DecidableEq

namespace Condition

/-- The condition that always holds. -/
def empty : Condition := ⟨.empty, .empty⟩

/-- The condition on the listed fluents. -/
def ofLists (positive negative : List FluentId) : Condition := ⟨.ofList positive, .ofList negative⟩

/-- The condition asks for nothing. -/
def isEmpty (c : Condition) : Bool := c.positive.isEmpty && c.negative.isEmpty

/-- The fluents of the condition, the positive ones first, each group in increasing order. -/
def mentions (c : Condition) : List FluentId := c.positive.toList ++ c.negative.toList

/-- All positive fluents are among the true ones and no negative fluent is. -/
def HoldsIn (c : Condition) (facts : FluentSet) : Prop :=
  (∀ f ∈ c.positive.toList, f ∈ facts) ∧ ∀ f ∈ c.negative.toList, f ∉ facts

instance (c : Condition) (facts : FluentSet) : Decidable (c.HoldsIn facts) :=
  inferInstanceAs (Decidable (_ ∧ _))

end Condition

/-! ## Effects -/

/-- Fluents that become true and fluents that become false. -/
structure Effect where
  positive : FluentSet
  negative : FluentSet
  deriving DecidableEq

namespace Effect

/-- The effect on the listed fluents. -/
def ofLists (positive negative : List FluentId) : Effect := ⟨.ofList positive, .ofList negative⟩

/-- The effect changes nothing. -/
def isEmpty (e : Effect) : Bool := e.positive.isEmpty && e.negative.isEmpty

/-- The fluents of the effect, the positive ones first, each group in increasing order. -/
def mentions (e : Effect) : List FluentId := e.positive.toList ++ e.negative.toList

end Effect

/-! ## Initial states -/

/-- Fluents known to be true and fluents known to be false at the start.  A fluent that is in
neither set is false. -/
structure InitialState where
  positive : FluentSet
  negative : FluentSet
  deriving DecidableEq

namespace InitialState

/-- Nothing is true. -/
def empty : InitialState := ⟨.empty, .empty⟩

/-- The initial state on the listed fluents. -/
def ofLists (positive negative : List FluentId) : InitialState :=
  ⟨.ofList positive, .ofList negative⟩

/-- The fluents of the description, the positive ones first, each group in increasing order. -/
def mentions (i : InitialState) : List FluentId := i.positive.toList ++ i.negative.toList

end InitialState

end SnapshotPlan
