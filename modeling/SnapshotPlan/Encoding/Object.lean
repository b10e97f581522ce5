import SnapshotPlan.World.Fluent

/-!
# Objects

The things that get a propositional variable: fluents and actions.
-/

set_option autoImplicit false

namespace SnapshotPlan

/-- A fluent or an action. -/
inductive Object where
  | fluent (id : FluentId)
  | action (id : ActionId)
  deriving DecidableEq, Hashable

namespace Object

/-- The object is a fluent. -/
def isFluent : Object → Bool
  | fluent _ => true
  | action _ => false

/-- The object is an action. -/
def isAction : Object → Bool
  | fluent _ => false
  | action _ => true

/-- The kind and the short name of the object. -/
def describe : Object → String
  | fluent f => "fluent " ++ f.render
  | action a => "action " ++ a.render

/-- The short name of the object. -/
def render : Object → String
  | fluent f => f.render
  | action a => a.render

end Object

end SnapshotPlan
