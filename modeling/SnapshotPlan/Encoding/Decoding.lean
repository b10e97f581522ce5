import SnapshotPlan.Encoding.Registry

/-!
# Reading a model back

Each literal of a model says of one object whether it is true.  `Registry.decode` reads literals
and `Registry.decodeInts` plain numbers; both keep the order and stop at the first number without
an object.  A plan is the actions that come out true, in the order of the model: the encoding has
no time, so that order carries no meaning.
-/

set_option autoImplicit false

namespace SnapshotPlan

/-- Objects with truth values, in the order of a model. -/
abbrev Valuation := List (Object × Bool)

namespace Registry

/-- The objects of the literals, each with the literal's sign. -/
def decode (r : Registry) (lits : List Lit) : Except PlanFault Valuation :=
  lits.mapM fun l => (r.objectOf l.var).map fun o => (o, l.positive)

/-- The number by which a signed 64-bit number names its variable: its size, except that the least
such number, whose size does not fit, stands for itself. -/
def indexOfInt (x : Int) : Int := if x = Int64.minValue.toInt then x else x.natAbs

/-- The objects of signed numbers, each with the number's sign. -/
def decodeInts (r : Registry) (xs : List Int) : Except PlanFault Valuation :=
  xs.mapM fun x => (r.objectAt (indexOfInt x)).map fun o => (o, decide (0 < x))

end Registry

/-- The actions to take. -/
structure Plan where
  actions : List ActionId
  deriving DecidableEq

namespace Plan

/-- Nothing to do. -/
def empty : Plan := ⟨[]⟩

/-- The action of a true action object. -/
def chosen? : Object × Bool → Option ActionId
  | (.action a, true) => some a
  | _ => none

/-- The actions that are true, in order. -/
def ofValuation (v : Valuation) : Plan := ⟨v.filterMap chosen?⟩

end Plan

end SnapshotPlan
