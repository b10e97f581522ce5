import SnapshotPlan.World.FluentTable
import SnapshotPlan.World.State

/-!
# States as rows of bits

A state keeps its fluents in a row of bits, one bit for each.  Whoever writes a fluent beyond the
end makes the row grow up to it first, also when the fluent is made false; whoever reads one beyond
the end finds it false.  Rows are compared as they are, their lengths included.

`StateRow.toState` is the state that a row stands for.  A row is written to in the ways in which a
state is (`toState_set`, `toState_ofInitial`), and it says of itself what the state says
(`isSet_toState`, `entails_toState`).  Two rows are equal when their states are (`beq_iff`).
-/

set_option autoImplicit false

namespace SnapshotPlan

/-- A state as a row of bits. -/
structure StateRow (B : Type) [BitRow B] where
  row : FluentTable B

namespace StateRow

variable {B : Type} [BitRow B]

/-! ## Writing

There is one way to write a fluent, whatever is written: the row grows until it has the bit, and
then the bit is set. -/

/-- The state of the given size in which nothing is true. -/
def blank (size : Nat) : StateRow B := ⟨.ofLength size⟩

/-- Writes a truth value.  The row grows if it has to. -/
def set (s : StateRow B) (f : FluentId) (value : Bool) : StateRow B :=
  let grown := BitRow.reach s.row.bits f.toNat
  { row :=
    { bits := BitRow.set grown.val f.toNat grown.property value
      numbered := by
        intro i h
        rw [BitRow.test_set, BitRow.test_reach] at h
        split at h
        · next e => exact e ▸ f.toNat_lt
        · exact s.row.numbered i h } }

/-- Makes a fluent true. -/
def add (s : StateRow B) (f : FluentId) : StateRow B := s.set f true

/-- Makes a fluent false. -/
def del (s : StateRow B) (f : FluentId) : StateRow B := s.set f false

/-- The state described by an initial state; only its positive part counts. -/
def ofInitial (size : Nat) (init : InitialState) : StateRow B :=
  init.positive.toList.foldl add (blank size)

/-! ## Reading

A condition is read fluent by fluent, first those that it wants true. -/

/-- The number of fluents that the state knows. -/
def size (s : StateRow B) : Nat := BitRow.length s.row.bits

/-- The truth value of a fluent; beyond the size it is false. -/
def isSet (s : StateRow B) (f : FluentId) : Bool := s.row.contains f

/-- The true fluents in increasing order. -/
def fluents (s : StateRow B) : List FluentId := s.row.toList

/-- The condition holds in the state. -/
def entails (s : StateRow B) (c : Condition) : Bool :=
  c.positive.toList.all s.isSet && c.negative.toList.all fun f => !s.isSet f

/-- One short name per line for each true fluent. -/
def render (s : StateRow B) : String := String.join (s.fluents.map fun f => f.render ++ "\n")

/-- The true fluents' long names between braces. -/
def describe (s : StateRow B) : String := s.row.describe

/-- States are equal if their rows are. -/
instance {C : Type} [ComparableRow C] : BEq (StateRow C) :=
  ⟨fun s t => ComparableRow.same s.row.bits t.row.bits⟩

/-! ## The state that a row stands for

What is true in it are the elements of the row as a table.  They all lie below the length, since a
bit beyond it is off. -/

/-- The row as a state. -/
def toState (s : StateRow B) : State where
  size := s.size
  facts := s.row.toSet
  bounded := by
    intro f hf
    refine Nat.lt_of_not_le fun h => ?_
    rw [← FluentTable.contains_iff, FluentTable.contains,
      BitRow.test_of_length_le s.row.bits f.toNat h] at hf
    cases hf

variable {s t : StateRow B} {f : FluentId}

theorem size_toState (s : StateRow B) : s.toState.size = s.size := rfl

theorem toList_facts_toState (s : StateRow B) : s.toState.facts.toList = s.fluents := rfl

theorem isSet_toState (s : StateRow B) (f : FluentId) : s.toState.isSet f = s.isSet f := by
  rw [Bool.eq_iff_iff, isSet, FluentTable.contains_iff, State.isSet, FluentSet.contains,
    decide_eq_true_eq]
  rfl

theorem render_toState (s : StateRow B) : s.toState.render = s.render := rfl

theorem describe_toState (s : StateRow B) : s.toState.facts.describe = s.describe := rfl

/-- Reading a condition fluent by fluent is reading it. -/
theorem entails_toState (s : StateRow B) (c : Condition) : s.toState.entails c = s.entails c := by
  rw [Bool.eq_iff_iff, State.entails_iff, entails, Bool.and_eq_true, List.all_eq_true,
    List.all_eq_true]
  simp only [isSet, FluentTable.contains_iff, Bool.not_eq_true', ← Bool.not_eq_true]
  exact Iff.rfl

/-- **A row stands for a state** if they have the same size, and the same fluents are true. -/
theorem toState_eq_iff {t : State} :
    s.toState = t ↔ s.size = t.size ∧ ∀ f, s.isSet f = true ↔ f ∈ t.facts := by
  have hfacts : (∀ f, s.isSet f = true ↔ f ∈ t.facts) ↔ s.row.toSet = t.facts := by
    refine ⟨fun h => FluentSet.ext fun f => ?_, fun h f => ?_⟩
    · exact FluentTable.contains_iff.symm.trans (h f)
    · exact FluentTable.contains_iff.trans (Eq.to_iff (congrArg (f ∈ ·) h))
  obtain ⟨size, facts, _⟩ := t
  rw [hfacts, toState, State.mk.injEq]

theorem size_set (s : StateRow B) (f : FluentId) (value : Bool) :
    (s.set f value).size = max s.size (f.toNat + 1) := by
  rw [size, set, BitRow.length_set]
  exact BitRow.length_reach s.row.bits f.toNat

theorem isSet_set (s : StateRow B) (f g : FluentId) (value : Bool) :
    (s.set f value).isSet g = if g = f then value else s.isSet g := by
  rw [isSet, isSet, FluentTable.contains, FluentTable.contains, set, BitRow.test_set,
    BitRow.test_reach]
  simp only [FluentId.toNat_inj]

theorem toState_blank (n : Nat) : (blank n : StateRow B).toState = .blank n := by
  refine toState_eq_iff.2 ⟨BitRow.length_ofLength n, fun f => iff_of_false ?_ ?_⟩
  · exact Bool.not_eq_true _ ▸ BitRow.test_ofLength n f.toNat
  · exact FluentSet.not_mem_empty f

/-- **Growing first and then setting the bit is writing the fluent.** -/
theorem toState_set (s : StateRow B) (f : FluentId) (value : Bool) :
    (s.set f value).toState = s.toState.set f value := by
  refine toState_eq_iff.2 ⟨size_set s f value, fun g => ?_⟩
  rw [isSet_set, State.mem_set]
  split
  · rfl
  · exact FluentTable.contains_iff

/-- Described states are written in the same way. -/
theorem toState_ofInitial (n : Nat) (init : InitialState) :
    (ofInitial n init : StateRow B).toState = .ofInitial n init := by
  have hadd : ∀ (fs : List FluentId) (s : StateRow B),
      (fs.foldl add s).toState = fs.foldl State.add s.toState := by
    intro fs
    induction fs with
    | nil => exact fun s => rfl
    | cons f fs ih => exact fun s => (ih (s.add f)).trans (by rw [add, toState_set]; rfl)
  rw [ofInitial, hadd, toState_blank, State.ofInitial]

/-- **Rows are equal iff they stand for the same state.**  The positions of fluents are all that can
differ, since no other bit is on. -/
theorem beq_iff {C : Type} [ComparableRow C] {s t : StateRow C} :
    (s == t) = true ↔ s.toState = t.toState := by
  refine (ComparableRow.same_iff _ _).trans (toState_eq_iff.trans ?_).symm
  refine and_congr_right fun _ => ⟨fun h i => ?_, fun h f => ?_⟩
  · by_cases hi : i < UInt32.size
    · rw [Bool.eq_iff_iff, ← FluentId.toNat_ofNat hi]
      exact (h (.ofNat i)).trans FluentTable.contains_iff.symm
    · have hoff : ∀ u : StateRow C, BitRow.test u.row.bits i = false := fun u =>
        Bool.eq_false_iff.2 fun hon => hi (u.row.numbered i hon)
      rw [hoff, hoff]
  · exact (Bool.eq_iff_iff.1 (h f.toNat)).trans FluentTable.contains_iff

end StateRow
end SnapshotPlan
