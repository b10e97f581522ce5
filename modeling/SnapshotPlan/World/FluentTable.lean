import SnapshotPlan.World.BitRow
import SnapshotPlan.World.Action

/-!
# Sets of fluents as rows of bits

A table keeps a set of fluents in a row of bits, one bit for each number.  The row grows when a
fluent beyond its end is inserted and never shrinks, so tables with the same elements may have rows
of different lengths.

`FluentTable.toSet` is the set that a table holds.  A table is built in the ways in which sets are,
and `mem_toSet_insert` and its companions say what a step does to the set.  What a table says of
itself, the set says as well: `contains_iff`, `toList_toSet`, `size_toSet`, `isEmpty_toSet`,
`max?_toSet`.  Two tables are equal when their sets are (`beq_iff`).

`FluentTable.Call` and `FluentTable.perform` are steps on tables that are known by name, as data.
`TablePair` and `TableAction` are conditions, effects and actions over tables; `beq_iff_condition`
and `isEmpty_condition` relate a pair to the condition it stands for.
-/

set_option autoImplicit false

namespace SnapshotPlan

/-- A set of fluents as a row of bits.  A bit that is on stands at the number of a fluent. -/
structure FluentTable (B : Type) [BitRow B] where
  bits : B
  numbered : ∀ i, BitRow.test bits i = true → i < UInt32.size

namespace FluentTable

variable {B : Type} [BitRow B]

/-! ## Building tables -/

/-- A row of so many bits in which none is on. -/
def ofLength (n : Nat) : FluentTable B where
  bits := BitRow.ofLength n
  numbered := by
    intro i h
    rw [BitRow.test_ofLength] at h
    cases h

/-- The set without elements, and a row without bits. -/
def blank : FluentTable B := ofLength 0

/-- Switches the bit of a fluent on.  The row grows if it has to. -/
def insert (t : FluentTable B) (f : FluentId) : FluentTable B :=
  let grown := BitRow.reach t.bits f.toNat
  { bits := BitRow.insert grown.val f.toNat grown.property
    numbered := by
      intro i h
      rw [BitRow.test_insert, BitRow.test_reach] at h
      split at h
      · next e => exact e ▸ f.toNat_lt
      · exact t.numbered i h }

/-- Switches the bit of a fluent off, if the row has it. -/
def erase (t : FluentTable B) (f : FluentId) : FluentTable B :=
  if h : f.toNat < BitRow.length t.bits then
    { bits := BitRow.set t.bits f.toNat h false
      numbered := by
        intro i hi
        rw [BitRow.test_set] at hi
        split at hi
        · cases hi
        · exact t.numbered i hi }
  else t

/-- The set of the listed fluents. -/
def ofList (ids : List FluentId) : FluentTable B := ids.foldl insert blank

/-! ## Views -/

/-- The fluent is an element. -/
def contains (t : FluentTable B) (f : FluentId) : Bool := BitRow.test t.bits f.toNat

/-- The elements in increasing order. -/
def toList (t : FluentTable B) : List FluentId := (BitRow.ones t.bits).map .ofNat

/-- The number of elements. -/
def size (t : FluentTable B) : Nat := BitRow.countOnes t.bits

/-- The set has no element. -/
def isEmpty (t : FluentTable B) : Bool := BitRow.isClear t.bits

/-- The greatest element. -/
def max? (t : FluentTable B) : Option FluentId := (BitRow.ones t.bits).getLast?.map .ofNat

/-- Tables are equal if they list the same elements, whatever their rows are like. -/
instance : BEq (FluentTable B) := ⟨fun t u => t.toList == u.toList⟩

/-- The words that a hash of the table is made from. -/
def words (t : FluentTable B) : List UInt32 := t.toList.map FluentId.index

/-- The elements' long names between braces. -/
def describe (t : FluentTable B) : String :=
  "\x7b" ++ ", ".intercalate (t.toList.map FluentId.describe) ++ "\x7d"

/-! ## The set that a table holds

A table lists its elements in increasing order and each once, so it stands for a `FluentSet`.
The length of its row has no part in that. -/

theorem toNat_ofNat_of_mem_ones {t : FluentTable B} {i : Nat} (h : i ∈ BitRow.ones t.bits) :
    (FluentId.ofNat i).toNat = i :=
  FluentId.toNat_ofNat (t.numbered i ((BitRow.mem_ones_iff t.bits i).1 h))

theorem pairwise_toList (t : FluentTable B) : t.toList.Pairwise (· < ·) := by
  rw [toList, List.pairwise_map]
  refine (BitRow.pairwise_ones t.bits).imp_of_mem fun {i j} hi hj hij => ?_
  rw [FluentId.lt_iff, toNat_ofNat_of_mem_ones hi, toNat_ofNat_of_mem_ones hj]
  exact hij

theorem mem_toList_iff {t : FluentTable B} {f : FluentId} :
    f ∈ t.toList ↔ t.contains f = true := by
  rw [toList, List.mem_map, contains, ← BitRow.mem_ones_iff]
  constructor
  · rintro ⟨i, hi, rfl⟩
    rw [toNat_ofNat_of_mem_ones hi]
    exact hi
  · exact fun h => ⟨f.toNat, h, f.ofNat_toNat⟩

/-- The elements as a set. -/
def toSet (t : FluentTable B) : FluentSet := ⟨t.toList, t.pairwise_toList⟩

theorem contains_iff {t : FluentTable B} {f : FluentId} : t.contains f = true ↔ f ∈ t.toSet :=
  mem_toList_iff.symm

theorem toList_toSet (t : FluentTable B) : t.toSet.toList = t.toList := rfl

theorem size_toSet (t : FluentTable B) : t.toSet.size = t.size := by
  rw [size, BitRow.countOnes_eq]
  exact List.length_map _

theorem isEmpty_toSet (t : FluentTable B) : t.toSet.isEmpty = t.isEmpty := by
  show t.toList.isEmpty = t.isEmpty
  rw [Bool.eq_iff_iff, isEmpty, BitRow.isClear_iff, List.isEmpty_iff, toList,
    List.map_eq_nil_iff, List.eq_nil_iff_forall_not_mem]
  simp only [BitRow.mem_ones_iff, Bool.not_eq_true]

theorem max?_toSet (t : FluentTable B) : t.toSet.max? = t.max? := by
  rw [max?, ← List.getLast?_map]
  rfl

/-- **Tables are equal iff they hold the same set.** -/
theorem beq_iff {t u : FluentTable B} : (t == u) = true ↔ t.toSet = u.toSet := by
  show (t.toList == u.toList) = true ↔ _
  rw [beq_iff_eq, toSet, toSet, FluentSet.mk.injEq]

/-! ## What a step does to the set -/

theorem not_mem_toSet_ofLength (n : Nat) (f : FluentId) :
    f ∉ (ofLength n : FluentTable B).toSet := by
  rw [← contains_iff, contains, ofLength, BitRow.test_ofLength]
  exact Bool.false_ne_true

theorem mem_toSet_insert {t : FluentTable B} {f g : FluentId} :
    g ∈ (t.insert f).toSet ↔ g = f ∨ g ∈ t.toSet := by
  rw [← contains_iff, ← contains_iff, contains, contains, insert, BitRow.test_insert,
    BitRow.test_reach, ← FluentId.toNat_inj]
  split <;> simp_all

/-- A fluent beyond the row is not in the set, so there is nothing to erase. -/
theorem mem_toSet_erase {t : FluentTable B} {f g : FluentId} :
    g ∈ (t.erase f).toSet ↔ g ≠ f ∧ g ∈ t.toSet := by
  rw [← contains_iff, ← contains_iff, erase, contains, contains, ne_eq, ← FluentId.toNat_inj]
  split
  · rw [BitRow.test_set]
    split <;> simp_all
  · next h =>
    have hbeyond := BitRow.test_of_length_le t.bits f.toNat (Nat.not_lt.1 h)
    refine (and_iff_right_of_imp fun hg e => ?_).symm
    rw [e, hbeyond] at hg
    cases hg

theorem mem_toSet_ofList {ids : List FluentId} {f : FluentId} :
    f ∈ (ofList ids : FluentTable B).toSet ↔ f ∈ ids := by
  have key : ∀ t : FluentTable B, f ∈ (ids.foldl insert t).toSet ↔ f ∈ ids ∨ f ∈ t.toSet := by
    induction ids with
    | nil => simp
    | cons g gs ih =>
      intro t
      rw [List.foldl_cons, ih, mem_toSet_insert, List.mem_cons, or_left_comm, or_assoc]
  exact (key blank).trans (or_iff_left (not_mem_toSet_ofLength 0 f))

/-! ## Steps as data -/

/-- What may be done to tables that are known by name. -/
inductive Call where
  | blank (name : String)
  | ofLength (name : String) (n : Nat)
  | ofList (name : String) (ids : List FluentId)
  | copy (name source : String)
  | insert (name : String) (f : FluentId)
  | erase (name : String) (f : FluentId)

/-- The tables, with another one under the given name. -/
def assign (tables : String → FluentTable B) (name : String) (t : FluentTable B) :
    String → FluentTable B :=
  fun other => if other = name then t else tables other

/-- Does what is asked. -/
def perform (tables : String → FluentTable B) : Call → String → FluentTable B
  | .blank name => assign tables name .blank
  | .ofLength name n => assign tables name (.ofLength n)
  | .ofList name ids => assign tables name (.ofList ids)
  | .copy name source => assign tables name (tables source)
  | .insert name f => assign tables name ((tables name).insert f)
  | .erase name f => assign tables name ((tables name).erase f)

/-- The tables after calls in turn, where every name stood for the blank table at first. -/
def after (calls : List Call) : String → FluentTable B := calls.foldl perform fun _ => .blank

end FluentTable

/-! ## Conditions, effects and actions over tables -/

/-- Two tables, as a condition has them and an effect. -/
structure TablePair (B : Type) [BitRow B] where
  positive : FluentTable B
  negative : FluentTable B

namespace TablePair

variable {B : Type} [BitRow B]

/-- The tables of the listed fluents. -/
def ofLists (positive negative : List FluentId) : TablePair B :=
  ⟨.ofList positive, .ofList negative⟩

instance : BEq (TablePair B) := ⟨fun p q => p.positive == q.positive && p.negative == q.negative⟩

/-- Neither table has an element. -/
def isEmpty (p : TablePair B) : Bool := p.positive.isEmpty && p.negative.isEmpty

/-- The words that a hash of the pair is made from. -/
def words (p : TablePair B) : List UInt32 := p.positive.words ++ p.negative.words

/-- The pair as a condition. -/
def condition (p : TablePair B) : Condition := ⟨p.positive.toSet, p.negative.toSet⟩

/-- The pair as an effect. -/
def effect (p : TablePair B) : Effect := ⟨p.positive.toSet, p.negative.toSet⟩

theorem beq_iff_condition {p q : TablePair B} : (p == q) = true ↔ p.condition = q.condition := by
  show (p.positive == q.positive && p.negative == q.negative) = true ↔ _
  rw [Bool.and_eq_true, FluentTable.beq_iff, FluentTable.beq_iff, condition, condition,
    Condition.mk.injEq]

theorem beq_iff_effect {p q : TablePair B} : (p == q) = true ↔ p.effect = q.effect := by
  rw [beq_iff_condition, condition, condition, effect, effect, Condition.mk.injEq, Effect.mk.injEq]

theorem isEmpty_condition (p : TablePair B) : p.condition.isEmpty = p.isEmpty := by
  rw [Condition.isEmpty, condition, FluentTable.isEmpty_toSet, FluentTable.isEmpty_toSet, isEmpty]

theorem isEmpty_effect (p : TablePair B) : p.effect.isEmpty = p.isEmpty := p.isEmpty_condition

end TablePair

/-- An action over tables.  Each effect is a guard and what it changes. -/
structure TableAction (B : Type) [BitRow B] where
  name : String
  precondition : TablePair B
  effects : List (TablePair B × TablePair B)

/-- The action with the sets in place of their tables. -/
def TableAction.action {B : Type} [BitRow B] (a : TableAction B) : Action where
  name := a.name
  precondition := a.precondition.condition
  effects := a.effects.map fun e => ⟨e.1.condition, e.2.effect⟩

end SnapshotPlan
