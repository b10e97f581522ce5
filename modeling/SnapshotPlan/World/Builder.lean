import Std.Data.HashMap
import SnapshotPlan.World.Problem

/-!
# Building problems

A builder holds a problem under construction and finds the fluents of the problem by name.  It may
refuse what is asked of it, and then it stays as it was; so every step returns what came of it
together with the builder afterwards.

## What is here

* `addFluent`, `addAction`, `setInitial`, `setGoal` — the steps, and `fluentId`, which changes
  nothing.
* `Builder.Call`, `Builder.perform` — the same as data.
* `Problem.assemble` — a problem from its parts.
-/

set_option autoImplicit false

namespace SnapshotPlan

/-- A problem under construction, and the numbers of its fluents by name. -/
structure Builder where
  problem : Problem
  /-- The fluent of each name. -/
  numbers : Std.HashMap String FluentId
  find_iff : ∀ (name : String) (f : FluentId),
    numbers[name]? = some f ↔ ∃ i, problem.fluents[i]? = some name ∧ FluentId.ofNat i = f

namespace Builder

/-- Nothing is declared yet. -/
def blank : Builder where
  problem := .empty
  numbers := ∅
  find_iff := by simp [Problem.empty]

/-- The problem as it stands. -/
def build (b : Builder) : Problem := b.problem

theorem mem_numbers_iff {b : Builder} {name : String} :
    name ∈ b.numbers ↔ name ∈ b.problem.fluents := by
  rw [Std.HashMap.mem_iff_isSome_getElem?, Option.isSome_iff_exists, Array.mem_iff_getElem?]
  simp only [b.find_iff]
  exact ⟨fun ⟨_, i, hi, _⟩ => ⟨i, hi⟩, fun ⟨i, hi⟩ => ⟨_, i, hi, rfl⟩⟩

theorem find_iff_push (b : Builder) {name : String} (fresh : name ∉ b.problem.fluents)
    (name' : String) (f : FluentId) :
    (b.numbers.insert name (.ofNat b.problem.fluents.size))[name']? = some f ↔
      ∃ i, (b.problem.fluents.push name)[i]? = some name' ∧ FluentId.ofNat i = f := by
  have hnone : ∀ i, b.problem.fluents[i]? ≠ some name := fun i hi =>
    fresh (Array.mem_of_getElem? hi)
  rw [Std.HashMap.getElem?_insert]
  by_cases hname : name = name'
  · subst hname
    simp only [beq_self_eq_true, if_true, Option.some.injEq]
    constructor
    · exact fun h => ⟨_, Array.getElem?_push_size, h⟩
    · rintro ⟨i, hi, h⟩
      rw [Array.getElem?_push] at hi
      split at hi
      · next hsize => rw [← hsize, h]
      · exact absurd hi (hnone i)
  · simp only [beq_iff_eq, hname, if_false, b.find_iff, Array.getElem?_push]
    refine exists_congr fun i => and_congr_left fun _ => ?_
    split
    · next hsize => simp [hsize, hname]
    · exact Iff.rfl

/-! ## Steps -/

/-- Declares a fluent. -/
def addFluent (b : Builder) (name : String) : Except ProblemError FluentId × Builder :=
  if h : name ∈ b.numbers then (.error (.duplicateFluent name), b)
  else
    have fresh : name ∉ b.problem.fluents := fun hmem => h (mem_numbers_iff.2 hmem)
    let id := FluentId.ofNat b.problem.fluents.size
    (.ok id, ⟨b.problem.withFluent name fresh, b.numbers.insert name id, b.find_iff_push fresh⟩)

/-- The fluent with the given name. -/
def fluentId (b : Builder) (name : String) : Except ProblemError FluentId :=
  match b.numbers[name]? with
  | some f => .ok f
  | none => .error (.unknownFluent name)

/-- Adds an action. -/
def addAction (b : Builder) (a : Action) : Except ProblemError ActionId × Builder :=
  match b.problem.check a.mentions (.action a.name) with
  | .error e => (.error e, b)
  | .ok ⟨known⟩ =>
    (.ok (.ofNat b.problem.actions.size), { b with problem := b.problem.withAction a known })

/-- Replaces the initial state. -/
def setInitial (b : Builder) (init : InitialState) : Except ProblemError Unit × Builder :=
  match b.problem.check init.mentions .initialState with
  | .error e => (.error e, b)
  | .ok ⟨known⟩ => (.ok (), { b with problem := b.problem.withInitial init known })

/-- Replaces the goal. -/
def setGoal (b : Builder) (goal : Condition) : Except ProblemError Unit × Builder :=
  match b.problem.check goal.mentions .goal with
  | .error e => (.error e, b)
  | .ok ⟨known⟩ => (.ok (), { b with problem := b.problem.withGoal goal known })

/-! ## Steps as data

The same steps as values that can be listed.  What holds of any series of steps is said about
lists of calls. -/

/-- What may be asked of a builder. -/
inductive Call where
  | addFluent (name : String)
  | fluentId (name : String)
  | addAction (action : Action)
  | setInitial (init : InitialState)
  | setGoal (goal : Condition)
  deriving DecidableEq

/-- What a builder replies when it does not refuse. -/
inductive Reply where
  | fluent (id : FluentId)
  | action (id : ActionId)
  | done
  deriving DecidableEq

/-- What came of a step, put as a reply. -/
def replying {α : Type} (reply : α → Reply) (r : Except ProblemError α × Builder) :
    Except ProblemError Reply × Builder := (r.1.map reply, r.2)

/-- Does what is asked. -/
def perform (b : Builder) : Call → Except ProblemError Reply × Builder
  | .addFluent name => replying .fluent (b.addFluent name)
  | .fluentId name => replying .fluent (b.fluentId name, b)
  | .addAction a => replying .action (b.addAction a)
  | .setInitial init => replying (fun _ => .done) (b.setInitial init)
  | .setGoal goal => replying (fun _ => .done) (b.setGoal goal)

/-- Does what is asked in order, up to the first refusal. -/
def performAll (b : Builder) : List Call → Except ProblemError Builder
  | [] => .ok b
  | c :: cs =>
    match b.perform c with
    | (.error e, _) => .error e
    | (.ok _, b) => b.performAll cs

end Builder

/-- The problem with the given parts, declared in the order in which they are listed here. -/
def Problem.assemble (fluents : List String) (actions : List Action) (init : InitialState)
    (goal : Condition) : Except ProblemError Problem :=
  (Builder.blank.performAll (fluents.map .addFluent ++ actions.map .addAction ++
    [.setInitial init, .setGoal goal])).map Builder.build

end SnapshotPlan
