import SnapshotPlan.Encoding.Object
import SnapshotPlan.World.Action

/-!
# What choosing an action implies

An action that is chosen implies its precondition, and it implies each of its effects wherever the
guard of the effect holds.  There is one set of fluents and no time: the fluents of a precondition
and those of an effect are the same ones.

Each group of implications with a common premise is an `Implication`: it says that, unless one of
the `escapes` holds, every one of the `targets` does.  `Implication.ofAction` lists the groups of
an action, and `Implication.Respected` is what they ask of a truth assignment to objects.
-/

set_option autoImplicit false

namespace SnapshotPlan

/-- A literal over objects: an object together with a truth value that it may have. -/
structure ObjectLit where
  object : Object
  value : Bool
  deriving DecidableEq

/-- The object has the value. -/
def ObjectLit.Holds (τ : Object → Bool) (l : ObjectLit) : Prop := τ l.object = l.value

/-- What part of an action a target comes from. -/
inductive Role where
  | positivePrecondition
  | negativePrecondition
  | positiveEffect
  | negativeEffect
  deriving DecidableEq

/-- Unless one of the escapes holds, every target does. -/
structure Implication where
  role : Role
  escapes : List ObjectLit
  targets : List ObjectLit
  deriving DecidableEq

namespace Implication

/-- All fluents of a set with the same value. -/
def uniform (s : FluentSet) (value : Bool) : List ObjectLit :=
  s.toList.map fun f => ⟨.fluent f, value⟩

/-- The ways in which a condition may fail: a positive fluent is false or a negative one
true. -/
def violations (c : Condition) : List ObjectLit :=
  uniform c.positive false ++ uniform c.negative true

/-- What an effect implies when the action is chosen and the guard holds. -/
def ofEffect (id : ActionId) (e : ConditionalEffect) : List Implication :=
  let escapes := ⟨.action id, false⟩ :: violations e.guard
  [⟨.positiveEffect, escapes, uniform e.effect.positive true⟩,
    ⟨.negativeEffect, escapes, uniform e.effect.negative false⟩]

/-- All that choosing the action implies: the precondition, then each effect. -/
def ofAction (id : ActionId) (a : Action) : List Implication :=
  ⟨.positivePrecondition, [⟨.action id, false⟩], uniform a.precondition.positive true⟩
    :: ⟨.negativePrecondition, [⟨.action id, false⟩], uniform a.precondition.negative false⟩
    :: a.effects.flatMap (ofEffect id)

/-! ## Meaning -/

/-- Some escape holds or every target does. -/
def Respected (τ : Object → Bool) (i : Implication) : Prop :=
  (∃ l ∈ i.escapes, l.Holds τ) ∨ ∀ l ∈ i.targets, l.Holds τ

end Implication

end SnapshotPlan
