import Mathlib.Data.List.Induction
import Mathlib.Order.Bounds.Lattice
import SnapshotPlan.Proofs.World.States
import SnapshotPlan.World.StateRow

/-!
# Writing to a state

A state is written to in three ways: a fluent is made true, made false, or given a value.  Each of
them makes the state grow up to the fluent, and none of them touches another one.

## What is here

* `State.Write`, `State.write`, `State.writeAll` — one write and several, one after another.
* `State.lastWritten?` — what was last written to a fluent, read off the writes alone.
* `State.isSet_write`, `State.size_write` — one write; `State.isSet_writeAll`,
  `State.isGreatest_size_writeAll` — **the values and the size after any number of them.**
* `State.eq_iff` — states are equal iff their sizes and their values are.
* `StateRow.Tells` — a row of bits says of itself all that a state does, and `tells_writeAll`: **it
  goes on to do so when both are written to.**
* `state_after_writes` — a described state after writes, in one statement.
-/

set_option autoImplicit false

namespace SnapshotPlan

namespace State

/-! ## One write -/

/-- The ways to write to a state. -/
inductive Write where
  | add (f : FluentId)
  | del (f : FluentId)
  | set (f : FluentId) (value : Bool)
  deriving DecidableEq

namespace Write

/-- The fluent that is written. -/
def fluent : Write → FluentId
  | add f | del f | set f _ => f

/-- What is written. -/
def value : Write → Bool
  | add _ => true
  | del _ => false
  | set _ value => value

end Write

/-- Writes once. -/
def write (s : State) : Write → State
  | .add f => s.add f
  | .del f => s.del f
  | .set f value => s.set f value

theorem write_eq_set (s : State) (w : Write) : s.write w = s.set w.fluent w.value := by
  cases w <;> rfl

theorem isSet_write (s : State) (w : Write) (f : FluentId) :
    (s.write w).isSet f = if f = w.fluent then w.value else s.isSet f := by
  rw [Bool.eq_iff_iff, isSet_iff, write_eq_set, mem_set]
  split
  · rfl
  · exact isSet_iff.symm

theorem size_write (s : State) (w : Write) :
    (s.write w).size = max s.size (w.fluent.toNat + 1) := by
  rw [write_eq_set, size_set]

/-! ## Several writes

What counts is the last write to a fluent and the largest fluent ever written to.  Both
inductions take the last write off the end of the list, where it is seen first. -/

/-- Writes one after another. -/
def writeAll (s : State) (ws : List Write) : State := ws.foldl write s

theorem writeAll_append (s : State) (vs ws : List Write) :
    s.writeAll (vs ++ ws) = (s.writeAll vs).writeAll ws :=
  List.foldl_append

theorem writeAll_singleton (s : State) (w : Write) : s.writeAll [w] = s.write w := rfl

/-- What was last written to a fluent, if anything was. -/
def lastWritten? (f : FluentId) (ws : List Write) : Option Bool :=
  (ws.filter fun w => w.fluent = f).getLast?.map Write.value

theorem lastWritten?_concat (f : FluentId) (ws : List Write) (w : Write) :
    lastWritten? f (ws ++ [w]) = if f = w.fluent then some w.value else lastWritten? f ws := by
  rw [lastWritten?, List.filter_append]
  by_cases h : f = w.fluent
  · simp [h]
  · simp [h, Ne.symm h, lastWritten?]

theorem isSet_writeAll (s : State) (ws : List Write) (f : FluentId) :
    (s.writeAll ws).isSet f = (lastWritten? f ws).getD (s.isSet f) := by
  induction ws using List.reverseRecOn with
  | nil => rfl
  | append_singleton ws w ih =>
    rw [writeAll_append, writeAll_singleton, isSet_write, lastWritten?_concat, ih]
    split <;> rfl

/-- The sizes that the writes ask for. -/
def demands (ws : List Write) : Set Nat := {k | ∃ w ∈ ws, k = w.fluent.toNat + 1}

theorem demands_append (vs ws : List Write) : demands (vs ++ ws) = demands vs ∪ demands ws := by
  ext k
  simp only [demands, Set.mem_union, Set.mem_ofPred_eq, List.mem_append, or_and_right, exists_or]

theorem demands_map_add (fs : List FluentId) :
    demands (fs.map .add) = {k | ∃ f ∈ fs, k = f.toNat + 1} := by
  ext k
  simp only [demands, Set.mem_ofPred_eq, List.mem_map, exists_exists_and_eq_and]
  rfl

/-- **The size is where the state began or just beyond a fluent that was written**, whichever is
greatest, and whatever was written. -/
theorem isGreatest_size_writeAll (s : State) (ws : List Write) :
    IsGreatest ({s.size} ∪ demands ws) (s.writeAll ws).size := by
  induction ws using List.reverseRecOn with
  | nil => simp [demands, writeAll]
  | append_singleton ws w ih =>
    have hone : demands [w] = {w.fluent.toNat + 1} := by simp [demands]
    rw [writeAll_append, writeAll_singleton, size_write, demands_append, hone, ← Set.union_assoc]
    exact ih.union isGreatest_singleton

/-! ## Values and nothing else

Beyond its size a state says false, as a larger one may say anyway.  So equal values are not
quite equal states, and the size is the only other difference. -/

theorem isSet_eq_false_of_size_le {s : State} {f : FluentId} (h : s.size ≤ f.toNat) :
    s.isSet f = false :=
  Bool.eq_false_iff.2 fun hf => Nat.not_lt.2 h (s.bounded f (isSet_iff.1 hf))

theorem facts_eq_iff {s t : State} : s.facts = t.facts ↔ ∀ f, s.isSet f = t.isSet f := by
  refine ⟨fun h f => ?_, fun h => FluentSet.ext fun f => ?_⟩
  · rw [isSet, isSet, h]
  · rw [← isSet_iff, ← isSet_iff, h f]

/-- **States are equal iff their sizes and their values are.** -/
theorem eq_iff {s t : State} : s = t ↔ s.size = t.size ∧ ∀ f, s.isSet f = t.isSet f := by
  rw [← facts_eq_iff]
  cases s
  cases t
  exact State.mk.injEq .. |>.to_iff

theorem entails_iff_isSet {s : State} {c : Condition} :
    s.entails c = true ↔
      (∀ f ∈ c.positive, s.isSet f = true) ∧ ∀ f ∈ c.negative, s.isSet f = false := by
  simp only [entails_iff, ← Bool.not_eq_true, isSet_iff]
  exact Iff.rfl

theorem entails_congr {s t : State} (h : ∀ f, s.isSet f = t.isSet f) (c : Condition) :
    s.entails c = t.entails c := by
  rw [entails, entails, facts_eq_iff.2 h]

/-! ## Described states -/

/-- A described state is a blank one in which what is said to be true was made true. -/
theorem ofInitial_eq_writeAll (n : Nat) (init : InitialState) :
    ofInitial n init = (blank n).writeAll (init.positive.toList.map .add) := by
  rw [writeAll, List.foldl_map]
  rfl

theorem isSet_ofInitial (n : Nat) (init : InitialState) (f : FluentId) :
    (ofInitial n init).isSet f = init.positive.contains f := by
  rw [Bool.eq_iff_iff, isSet_iff, mem_facts_ofInitial, FluentSet.contains, decide_eq_true_eq]

theorem isGreatest_size_ofInitial (n : Nat) (init : InitialState) (ws : List Write) :
    IsGreatest ({n} ∪ {k | ∃ f ∈ init.positive, k = f.toNat + 1} ∪ demands ws)
      ((ofInitial n init).writeAll ws).size := by
  have h := isGreatest_size_writeAll (blank n) (init.positive.toList.map .add ++ ws)
  rw [writeAll_append, ← ofInitial_eq_writeAll, demands_append, demands_map_add,
    ← Set.union_assoc] at h
  exact h

/-- What is said to be false is not read. -/
theorem ofInitial_congr {n : Nat} {init init' : InitialState} (h : init.positive = init'.positive) :
    ofInitial n init = ofInitial n init' := by
  rw [ofInitial, ofInitial, h]

end State

/-! ## Rows of bits

A row that is written to stays in step with the state that it stands for, so what holds of states
after writes holds of rows: nothing that a row is asked tells them apart. -/

namespace StateRow

section Writes

variable {B : Type} [BitRow B]

/-- Writes once. -/
def write (r : StateRow B) : State.Write → StateRow B
  | .add f => r.add f
  | .del f => r.del f
  | .set f value => r.set f value

/-- Writes one after another. -/
def writeAll (r : StateRow B) (ws : List State.Write) : StateRow B := ws.foldl write r

theorem toState_write (r : StateRow B) (w : State.Write) :
    (r.write w).toState = r.toState.write w := by
  cases w <;> exact toState_set r _ _

theorem toState_writeAll (ws : List State.Write) : ∀ r : StateRow B,
    (r.writeAll ws).toState = r.toState.writeAll ws := by
  induction ws with
  | nil => exact fun r => rfl
  | cons w ws ih =>
    intro r
    have hnext := ih (r.write w)
    rw [toState_write] at hnext
    exact hnext

end Writes

variable {C : Type} [ComparableRow C]

/-- The row says of itself what the state does, and is equal to those rows that do so too. -/
structure Tells (r : StateRow C) (s : State) : Prop where
  size_eq : r.size = s.size
  isSet_eq : ∀ f, r.isSet f = s.isSet f
  fluents_eq : r.fluents = s.facts.toList
  entails_eq : ∀ c, r.entails c = s.entails c
  render_eq : r.render = s.render
  describe_eq : r.describe = s.facts.describe
  beq_iff : ∀ r' : StateRow C, (r == r') = true ↔ s = r'.toState

theorem tells_toState (r : StateRow C) : r.Tells r.toState where
  size_eq := r.size_toState.symm
  isSet_eq := fun f => (r.isSet_toState f).symm
  fluents_eq := r.toList_facts_toState.symm
  entails_eq := fun c => (r.entails_toState c).symm
  render_eq := r.render_toState.symm
  describe_eq := r.describe_toState.symm
  beq_iff := fun _ => StateRow.beq_iff

/-- **A described row and a described state stay in step.** -/
theorem tells_writeAll (n : Nat) (init : InitialState) (ws : List State.Write) :
    ((ofInitial n init : StateRow C).writeAll ws).Tells ((State.ofInitial n init).writeAll ws) := by
  rw [← toState_ofInitial (B := C), ← toState_writeAll]
  exact tells_toState _

end StateRow

/-! ## In one statement -/

/-- **The state after writes to a described one.**  Its size is the given one, or just beyond a
fluent that was said to be true or was written, whichever is greatest.  A fluent has the value that
was last written to it; else it is true iff it was said to be; and beyond the size it is false.  The
true fluents are listed in order, a condition is judged by them alone, and what was said to be false
does not matter.  States are equal iff their sizes and their true fluents are, and a further write
touches one fluent only.  A row of bits to which the same is written tells the same. -/
theorem state_after_writes (n : Nat) (init : InitialState) (ws : List State.Write) :
    let s := (State.ofInitial n init).writeAll ws
    IsGreatest ({n} ∪ {k | ∃ f ∈ init.positive, k = f.toNat + 1} ∪
      {k | ∃ w ∈ ws, k = w.fluent.toNat + 1}) s.size ∧
    (∀ f, s.isSet f = (State.lastWritten? f ws).getD (init.positive.contains f)) ∧
    (∀ f, s.size ≤ f.toNat → s.isSet f = false) ∧
    (s.facts.toList.Pairwise (· < ·) ∧ ∀ f, f ∈ s.facts.toList ↔ s.isSet f = true) ∧
    (∀ c, s.entails c = true ↔
      (∀ f ∈ c.positive, s.isSet f = true) ∧ ∀ f ∈ c.negative, s.isSet f = false) ∧
    (∀ t : State, (∀ f, s.isSet f = t.isSet f) → ∀ c, s.entails c = t.entails c) ∧
    (∀ negative, (State.ofInitial n ⟨init.positive, negative⟩).writeAll ws = s) ∧
    (∀ t : State, s = t ↔ s.size = t.size ∧ ∀ f, s.isSet f = t.isSet f) ∧
    (∀ w f, f ≠ w.fluent → (s.write w).isSet f = s.isSet f) ∧
    State.blank n = State.ofInitial n .empty ∧
    ∀ (C : Type) [ComparableRow C],
      ((StateRow.ofInitial n init : StateRow C).writeAll ws).Tells s := by
  intro s
  refine ⟨State.isGreatest_size_ofInitial n init ws, fun f => ?_, ?_, ⟨s.facts.increasing, ?_⟩, ?_,
    ?_, ?_, ?_, ?_, rfl, ?_⟩
  · rw [State.isSet_writeAll, State.isSet_ofInitial]
  · exact fun f => State.isSet_eq_false_of_size_le
  · exact fun f => State.isSet_iff.symm
  · exact fun c => State.entails_iff_isSet
  · exact fun t => State.entails_congr
  · exact fun negative => congrArg (State.writeAll · ws) (State.ofInitial_congr rfl)
  · exact fun t => State.eq_iff
  · intro w f hf
    rw [State.isSet_write, if_neg hf]
  · exact fun C _ => StateRow.tells_writeAll n init ws

/-- A fluent that is said to be both is true at first, and writing a fluent false makes room for
it. -/
example :
    let init : InitialState := .ofLists [⟨5⟩] [⟨5⟩]
    let r : StateRow SparseBits :=
      (StateRow.ofInitial 2 init).writeAll [.set ⟨9⟩ false, .add ⟨0⟩, .del ⟨0⟩]
    r.size = 10 ∧ r.fluents = [⟨5⟩] := by
  decide

end SnapshotPlan
