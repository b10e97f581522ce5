import SnapshotPlan.World.Problem

/-!
# What becomes of a state

Making fluents of a state true and false is the same as inserting them into the set of true fluents
and erasing them from it.

## What is here

* `State.mem_facts_ofInitial` — **exactly what is said to be true initially is true.**
* `State.after` — the state after an action, and `State.facts_after`: its facts are those of
  `Action.execute`.
* `Problem.Runs` — running actions of a problem one after another, from state to state.
-/

set_option autoImplicit false

namespace SnapshotPlan

/-! ## Writing many fluents -/

namespace State

variable {s : State} {f : FluentId}

theorem isSet_iff : s.isSet f = true ↔ f ∈ s.facts := by
  rw [isSet, FluentSet.contains, decide_eq_true_eq]

theorem facts_foldl_add (fs : List FluentId) : ∀ s : State,
    (fs.foldl add s).facts = fs.foldl FluentSet.insert s.facts := by
  induction fs with
  | nil => exact fun s => rfl
  | cons f fs ih => exact fun s => ih (s.add f)

theorem facts_foldl_del (fs : List FluentId) : ∀ s : State,
    (fs.foldl del s).facts = fs.foldl FluentSet.erase s.facts := by
  induction fs with
  | nil => exact fun s => rfl
  | cons f fs ih => exact fun s => ih (s.del f)

/-- **Exactly what is said to be true initially is true**, whatever is said to be false. -/
theorem mem_facts_ofInitial {size : Nat} {init : InitialState} {f : FluentId} :
    f ∈ (ofInitial size init).facts ↔ f ∈ init.positive := by
  rw [ofInitial, facts_foldl_add, FluentSet.mem_foldl_insert]
  exact or_iff_left (FluentSet.not_mem_empty f)

/-! ## Actions -/

/-- The state after an action: what its firing effects delete is made false, and then what they add
is made true. -/
def after (s : State) (a : Action) : State :=
  let fired := a.firing s.facts
  let kept := (fired.flatMap fun e => e.negative.toList).foldl del s
  (fired.flatMap fun e => e.positive.toList).foldl add kept

theorem facts_after (s : State) (a : Action) : (s.after a).facts = a.execute s.facts := by
  rw [after, facts_foldl_add, facts_foldl_del, Action.execute]

end State

/-! ## Runs -/

namespace Problem

variable {p : Problem}

/-- Running the listed actions of the problem one after another, each in a state that entails its
precondition, leads from one state to another.  The actions themselves are listed, since a problem
may have more of them than there are numbers. -/
inductive Runs (p : Problem) : List Action → State → State → Prop where
  | nil (s : State) : Runs p [] s s
  | cons {a : Action} {as : List Action} {s t : State} (mem : a ∈ p.actions)
      (enabled : s.entails a.precondition = true) (rest : Runs p as (s.after a) t) :
      Runs p (a :: as) s t

end Problem
end SnapshotPlan
