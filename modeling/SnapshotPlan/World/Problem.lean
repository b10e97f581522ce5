import SnapshotPlan.World.Action
import SnapshotPlan.World.State

/-!
# Planning problems

A problem consists of fluents, ground actions, an initial state and a goal.  Fluents have distinct
names, and everything that an action, the initial state or the goal mentions is a declared fluent:
both are part of the type.

## What is here

* `withFluent`, `withAction`, `withInitial`, `withGoal` — from one problem to the next, and `check`,
  which says whether the way is open.
* `initialFullState`, `goalHoldsInitially` — the closed-world reading of the initial state.
* `ProblemError.message` — the wording of a refusal.
-/

set_option autoImplicit false

namespace SnapshotPlan

/-! ## Refusals -/

/-- The part of a problem that mentions a fluent. -/
inductive MentionContext where
  | action (name : String)
  | initialState
  | goal
  deriving DecidableEq

/-- The name of the part. -/
def MentionContext.describe : MentionContext → String
  | action name => "action " ++ name
  | initialState => "initial state"
  | goal => "goal"

/-- The reasons to refuse a step towards a problem. -/
inductive ProblemError where
  /-- The name is already that of a fluent. -/
  | duplicateFluent (name : String)
  /-- No fluent has the name. -/
  | unknownFluent (name : String)
  /-- A fluent is mentioned that is not declared; `count` are. -/
  | fluentOutOfRange (id : FluentId) (count : Nat) (context : MentionContext)
  deriving DecidableEq

/-- The wording of a refusal. -/
def ProblemError.message : ProblemError → String
  | duplicateFluent name => "Duplicate fluent: " ++ name
  | unknownFluent name => "Unknown fluent: " ++ name
  | fluentOutOfRange id count context =>
    "Fluent " ++ id.render ++ " is out of range (the problem declares " ++ toString count
      ++ " fluents) in " ++ context.describe

/-! ## Problems -/

/-- Every fluent of the list is among the first `count`. -/
def Declared (count : Nat) (ids : List FluentId) : Prop := ∀ f ∈ ids, f.toNat < count

theorem Declared.mono {m n : Nat} (h : m ≤ n) {ids : List FluentId} (d : Declared m ids) :
    Declared n ids := fun f hf => Nat.lt_of_lt_of_le (d f hf) h

/-- A planning problem in which every fluent mentioned is declared. -/
structure Problem where
  fluents : Array String
  actions : Array Action
  initial : InitialState
  goal : Condition
  names_nodup : fluents.toList.Nodup
  actions_declared : ∀ a ∈ actions, Declared fluents.size a.mentions
  initial_declared : Declared fluents.size initial.mentions
  goal_declared : Declared fluents.size goal.mentions

namespace Problem

/-- Nothing is declared, and the goal asks for nothing. -/
def empty : Problem where
  fluents := #[]
  actions := #[]
  initial := .empty
  goal := .empty
  names_nodup := by simp
  actions_declared := by simp
  initial_declared := by intro f h; exact absurd h (by simp [InitialState.mentions,
    InitialState.empty, FluentSet.toList, FluentSet.empty])
  goal_declared := by intro f h; exact absurd h (by simp [Condition.mentions, Condition.empty,
    FluentSet.toList, FluentSet.empty])

/-- The first fluent of the list that is not among the first `count`. -/
def firstUndeclared? (count : Nat) (ids : List FluentId) : Option FluentId :=
  ids.find? fun f => count ≤ f.toNat

theorem firstUndeclared?_eq_none_iff {count : Nat} {ids : List FluentId} :
    firstUndeclared? count ids = none ↔ Declared count ids := by
  simp [firstUndeclared?, Declared]

/-! ## From one problem to the next

Fluents are only added, so what was declared stays declared, and each problem takes its proofs
over from the one before. -/

/-- The problem with one more fluent, whose number is the count of those before it. -/
def withFluent (p : Problem) (name : String) (fresh : name ∉ p.fluents) : Problem :=
  have grows : p.fluents.size ≤ (p.fluents.push name).size := by simp
  { p with
    fluents := p.fluents.push name
    names_nodup := by
      rw [Array.toList_push, List.nodup_append]
      refine ⟨p.names_nodup, by simp, fun a ha b hb e => fresh ?_⟩
      rw [List.mem_singleton] at hb
      exact hb ▸ e ▸ Array.mem_toList_iff.1 ha
    actions_declared := fun a ha => Declared.mono grows (p.actions_declared a ha)
    initial_declared := Declared.mono grows p.initial_declared
    goal_declared := Declared.mono grows p.goal_declared }

/-- The problem with one more action, whose number is the count of those before it. -/
def withAction (p : Problem) (a : Action) (known : Declared p.fluents.size a.mentions) : Problem :=
  { p with
    actions := p.actions.push a
    actions_declared := fun b hb => by
      rcases Array.mem_push.1 hb with hb | rfl
      · exact p.actions_declared b hb
      · exact known }

/-- The problem with another initial state. -/
def withInitial (p : Problem) (init : InitialState)
    (known : Declared p.fluents.size init.mentions) : Problem :=
  { p with initial := init, initial_declared := known }

/-- The problem with another goal. -/
def withGoal (p : Problem) (goal : Condition) (known : Declared p.fluents.size goal.mentions) :
    Problem :=
  { p with goal, goal_declared := known }

/-- Refuses a list of mentions with the first fluent of it that is not declared. -/
def check (p : Problem) (ids : List FluentId) (context : MentionContext) :
    Except ProblemError (PLift (Declared p.fluents.size ids)) :=
  match h : firstUndeclared? p.fluents.size ids with
  | some f => .error (.fluentOutOfRange f p.fluents.size context)
  | none => .ok ⟨firstUndeclared?_eq_none_iff.1 h⟩

/-! ## Views -/

/-- The number of fluents. -/
def numFluents (p : Problem) : Nat := p.fluents.size

/-- The number of actions. -/
def numActions (p : Problem) : Nat := p.actions.size

/-- The fluents in order of declaration. -/
def fluentIds (p : Problem) : List FluentId := (List.range p.numFluents).map .ofNat

/-- The actions in order of declaration. -/
def actionIds (p : Problem) : List ActionId := (List.range p.numActions).map .ofNat

/-- The name of a fluent, if it is declared. -/
def fluentName? (p : Problem) (f : FluentId) : Option String := p.fluents[f.toNat]?

/-- The name of an action, if it is declared. -/
def actionName? (p : Problem) (a : ActionId) : Option String := p.actions[a.toNat]?.map Action.name

/-- The state described by the initial state: what it does not make true is false. -/
def initialFullState (p : Problem) : State := .ofInitial p.numFluents p.initial

/-- The goal holds before any action. -/
def goalHoldsInitially (p : Problem) : Bool := p.initialFullState.entails p.goal

/-- The names of the fluents of a set, separated by blanks. -/
def renderSet (p : Problem) (s : FluentSet) : String :=
  " ".intercalate (s.toList.map fun f => (p.fluentName? f).getD "")

/-- A title with a count, and one indented line for each name. -/
def renderNames (title : String) (names : List String) : String :=
  title ++ " (" ++ toString names.length ++ "):\n"
    ++ String.join (names.map fun n => "  " ++ n ++ "\n")

/-- The problem in full: fluents, actions, what is true initially, and the goal. -/
def render (p : Problem) : String :=
  renderNames "Fluents" p.fluents.toList
    ++ renderNames "Actions" (p.actions.toList.map Action.name)
    ++ "Init: " ++ p.renderSet p.initial.positive
    ++ "\nGoal: " ++ p.renderSet p.goal.positive
    ++ (if p.goal.negative.isEmpty then "" else " | not: " ++ p.renderSet p.goal.negative)

end Problem

end SnapshotPlan
