import SnapshotPlan.World.Condition

/-!
# States

A state knows a number of fluents (its size) and which of them are true.  Writing a fluent beyond
the size makes the state grow up to it, whatever is written.  Two states are equal when both their
sizes and their true fluents are.

`mem_set` and `size_set` describe a write; `State.entails_iff` is the meaning of a condition.
-/

set_option autoImplicit false

namespace SnapshotPlan

/-- A complete state: the true fluents among the first `size` ones. -/
structure State where
  size : Nat
  facts : FluentSet
  bounded : ∀ f ∈ facts, f.toNat < size
  deriving DecidableEq

namespace State

/-- The state of the given size in which nothing is true. -/
def blank (size : Nat) : State := ⟨size, .empty, fun f h => absurd h (FluentSet.not_mem_empty f)⟩

/-- Writes a truth value. -/
def set (s : State) (f : FluentId) (value : Bool) : State where
  size := max s.size (f.toNat + 1)
  facts := if value then s.facts.insert f else s.facts.erase f
  bounded := by
    intro g hg
    have key : g = f ∨ g ∈ s.facts := by
      cases value with
      | true => simpa using hg
      | false => exact .inr (by simpa using hg : g ≠ f ∧ g ∈ s.facts).2
    rcases key with rfl | h
    · omega
    · have := s.bounded g h
      omega

/-- Makes a fluent true. -/
def add (s : State) (f : FluentId) : State := s.set f true

/-- Makes a fluent false. -/
def del (s : State) (f : FluentId) : State := s.set f false

/-- The state described by an initial state; only its positive part counts. -/
def ofInitial (size : Nat) (init : InitialState) : State :=
  init.positive.toList.foldl add (blank size)

/-- The truth value of a fluent; beyond the size it is false. -/
def isSet (s : State) (f : FluentId) : Bool := s.facts.contains f

/-- The condition holds in the state. -/
def entails (s : State) (c : Condition) : Bool := decide (c.HoldsIn s.facts)

/-- One short name per line for each true fluent. -/
def render (s : State) : String := String.join (s.facts.toList.map fun f => f.render ++ "\n")

/-! ## What a write does -/

theorem mem_set {s : State} {f g : FluentId} {value : Bool} :
    g ∈ (s.set f value).facts ↔ if g = f then value = true else g ∈ s.facts := by
  cases value <;> by_cases h : g = f <;> simp [set, h]

theorem size_set (s : State) (f : FluentId) (value : Bool) :
    (s.set f value).size = max s.size (f.toNat + 1) := rfl

theorem entails_iff {s : State} {c : Condition} : s.entails c = true ↔ c.HoldsIn s.facts := by
  simp [entails]

end State

end SnapshotPlan
