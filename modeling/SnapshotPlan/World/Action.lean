import SnapshotPlan.World.Condition

/-!
# Actions and their execution

An action has a precondition and a list of conditional effects.  An effect fires if its guard
holds in the state before the action; an empty guard always holds.

## What is here

* `Action.mentions` — every fluent that the action speaks of, in a fixed order, which is the order
  in which an unknown one is reported.
* `Action.EnabledIn`, `Action.execute` — what it takes to execute the action and what comes of it:
  the deletes of all effects that fire are removed, then their adds are inserted.
* `mem_execute_iff` — a fluent is true afterwards if some firing effect adds it, or if it was true
  and no firing effect deletes it.
-/

set_option autoImplicit false

namespace SnapshotPlan

/-- An effect that fires only where its guard holds. -/
structure ConditionalEffect where
  guard : Condition
  effect : Effect
  deriving DecidableEq

/-- A ground operator. -/
structure Action where
  name : String
  precondition : Condition
  effects : List ConditionalEffect
  deriving DecidableEq

/-- The fluents of the guard, then those of the effect. -/
def ConditionalEffect.mentions (e : ConditionalEffect) : List FluentId :=
  e.guard.mentions ++ e.effect.mentions

namespace Action

/-- The fluents of the precondition, then those of each effect in turn. -/
def mentions (a : Action) : List FluentId :=
  a.precondition.mentions ++ a.effects.flatMap ConditionalEffect.mentions

/-! ## Execution -/

/-- The action can be executed where these fluents are the true ones. -/
def EnabledIn (a : Action) (facts : FluentSet) : Prop := a.precondition.HoldsIn facts

instance (a : Action) (facts : FluentSet) : Decidable (a.EnabledIn facts) :=
  inferInstanceAs (Decidable (a.precondition.HoldsIn facts))

/-- The effects whose guards hold. -/
def firing (a : Action) (facts : FluentSet) : List Effect :=
  (a.effects.filter fun e => e.guard.HoldsIn facts).map ConditionalEffect.effect

/-- The true fluents after the action: deletes of firing effects are removed, then their adds are
inserted. -/
def execute (a : Action) (facts : FluentSet) : FluentSet :=
  let fired := a.firing facts
  let kept := (fired.flatMap fun e => e.negative.toList).foldl FluentSet.erase facts
  (fired.flatMap fun e => e.positive.toList).foldl FluentSet.insert kept

theorem mem_foldl_erase {f : FluentId} {ids : List FluentId} {s : FluentSet} :
    f ∈ ids.foldl FluentSet.erase s ↔ f ∉ ids ∧ f ∈ s := by
  induction ids generalizing s with
  | nil => simp
  | cons g gs ih =>
    simp only [List.foldl_cons, ih, FluentSet.mem_erase, List.mem_cons, not_or]
    exact ⟨fun h => ⟨⟨h.2.1, h.1⟩, h.2.2⟩, fun h => ⟨h.1.2, h.1.1, h.2⟩⟩

theorem mem_execute_iff {a : Action} {facts : FluentSet} {f : FluentId} :
    f ∈ a.execute facts ↔
      (∃ e ∈ a.firing facts, f ∈ e.positive) ∨
        (¬ ∃ e ∈ a.firing facts, f ∈ e.negative) ∧ f ∈ facts := by
  simp only [execute, FluentSet.mem_foldl_insert, mem_foldl_erase, List.mem_flatMap]
  exact Iff.rfl

end Action

end SnapshotPlan
