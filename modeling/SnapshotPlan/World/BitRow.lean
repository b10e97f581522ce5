import Std.Data.TreeSet

/-!
# Rows of bits

A row of bits has a length, and it grows when it is asked to.  A bit beyond the length is off, and
it cannot be set before the row has grown up to it.

## What is here

* `BitRow` — what a row of bits offers, and what can be relied on about it.
* `BitRow.reach` — the row, grown if a bit lies beyond its length.
* `ComparableRow` — rows that can be compared, by their lengths and their bits.
* `SparseBits` — a row that keeps the positions of the bits that are on.
-/

set_option autoImplicit false

namespace SnapshotPlan

/-- The operations of a growable row of bits, and their laws. -/
class BitRow (B : Type) where
  /-- So many bits, all of them off. -/
  ofLength : Nat → B
  /-- The number of bits. -/
  length : B → Nat
  /-- Whether the bit is there and on. -/
  test : B → Nat → Bool
  /-- The row with at least so many bits. -/
  grow : B → Nat → B
  /-- The row with a bit switched on or off.  The bit has to be there. -/
  set : (b : B) → (i : Nat) → i < length b → Bool → B
  /-- The row with a bit switched on.  The bit has to be there. -/
  insert : (b : B) → (i : Nat) → i < length b → B
  /-- The positions of the bits that are on. -/
  ones : B → List Nat
  /-- How many bits are on. -/
  countOnes : B → Nat
  /-- No bit is on. -/
  isClear : B → Bool
  length_ofLength : ∀ n, length (ofLength n) = n
  test_ofLength : ∀ n i, test (ofLength n) i = false
  /-- There is no bit beyond the length. -/
  test_of_length_le : ∀ b i, length b ≤ i → test b i = false
  /-- A row never becomes shorter. -/
  length_grow : ∀ b n, length (grow b n) = max (length b) n
  /-- New bits are off. -/
  test_grow : ∀ b n i, test (grow b n) i = test b i
  length_set : ∀ b i h value, length (set b i h value) = length b
  test_set : ∀ b i h value j, test (set b i h value) j = if j = i then value else test b j
  length_insert : ∀ b i h, length (insert b i h) = length b
  test_insert : ∀ b i h j, test (insert b i h) j = if j = i then true else test b j
  /-- The positions are listed in order, each of them once. -/
  pairwise_ones : ∀ b, (ones b).Pairwise (· < ·)
  mem_ones_iff : ∀ b i, i ∈ ones b ↔ test b i = true
  countOnes_eq : ∀ b, countOnes b = (ones b).length
  isClear_iff : ∀ b, isClear b = true ↔ ∀ i, test b i = false

namespace BitRow

variable {B : Type} [BitRow B]

/-- The row itself if it has the bit, else the row grown just enough to have it. -/
def reach (b : B) (i : Nat) : { grown : B // i < length grown } :=
  if h : i < length b then ⟨b, h⟩
  else ⟨grow b (i + 1), by rw [length_grow]; omega⟩

theorem test_reach (b : B) (i j : Nat) : test (reach b i).val j = test b j := by
  rw [reach]
  split
  · rfl
  · exact test_grow b (i + 1) j

theorem length_reach (b : B) (i : Nat) : length (reach b i).val = max (length b) (i + 1) := by
  rw [reach]
  split
  · next h => exact (Nat.max_eq_left h).symm
  · exact length_grow b (i + 1)

end BitRow

/-- Rows that can be compared: they are the same if they have the same length and the same bits. -/
class ComparableRow (B : Type) extends BitRow B where
  same : B → B → Bool
  same_iff : ∀ b c, same b c = true ↔ length b = length c ∧ ∀ i, test b i = test c i

/-! ## A row that keeps the positions of its bits

A set of positions is enough beside the length.  That no position lies beyond the length is part of
the type, so growing changes the length and nothing else. -/

/-- A length, and the positions of the bits that are on. -/
structure SparseBits where
  length : Nat
  on : Std.TreeSet Nat
  bounded : ∀ i, on.contains i = true → i < length

namespace SparseBits

theorem contains_insert_iff (on : Std.TreeSet Nat) (i j : Nat) :
    (on.insert i).contains j = if j = i then true else on.contains j := by
  rw [Std.TreeSet.contains_insert, Bool.eq_iff_iff, Bool.or_eq_true, beq_iff_eq,
    Nat.compare_eq_eq, eq_comm]
  split <;> simp_all

theorem contains_erase_iff (on : Std.TreeSet Nat) (i j : Nat) :
    (on.erase i).contains j = if j = i then false else on.contains j := by
  rw [Std.TreeSet.contains_erase, Bool.eq_iff_iff, Bool.and_eq_true, bne_iff_ne, ne_eq,
    Nat.compare_eq_eq, eq_comm]
  split <;> simp_all

/-- The row with a bit switched on. -/
def insert (b : SparseBits) (i : Nat) (h : i < b.length) : SparseBits where
  length := b.length
  on := b.on.insert i
  bounded := by
    intro j hj
    rw [contains_insert_iff] at hj
    split at hj
    · next e => exact e ▸ h
    · exact b.bounded j hj

/-- The row with a bit switched off. -/
def erase (b : SparseBits) (i : Nat) : SparseBits where
  length := b.length
  on := b.on.erase i
  bounded := by
    intro j hj
    rw [contains_erase_iff] at hj
    split at hj
    · cases hj
    · exact b.bounded j hj

instance : BitRow SparseBits where
  ofLength n := ⟨n, ∅, by simp⟩
  length := length
  test b i := b.on.contains i
  grow b n := ⟨max b.length n, b.on, fun i h => Nat.lt_of_lt_of_le (b.bounded i h)
    (Nat.le_max_left ..)⟩
  set b i h value := if value then b.insert i h else b.erase i
  insert := insert
  ones b := b.on.toList
  countOnes b := b.on.size
  isClear b := b.on.isEmpty
  length_ofLength n := rfl
  test_ofLength n i := Std.TreeSet.contains_emptyc
  test_of_length_le b i h := Bool.eq_false_iff.2 fun hon => Nat.not_lt.2 h (b.bounded i hon)
  length_grow b n := rfl
  test_grow b n i := rfl
  length_set b i h value := by cases value <;> rfl
  test_set b i h value j := by
    cases value
    · exact contains_erase_iff b.on i j
    · exact contains_insert_iff b.on i j
  length_insert b i h := rfl
  test_insert b i h j := contains_insert_iff b.on i j
  pairwise_ones b := Std.TreeSet.ordered_toList.imp Nat.compare_eq_lt.1
  mem_ones_iff b i := Std.TreeSet.mem_toList
  countOnes_eq b := Std.TreeSet.length_toList.symm
  isClear_iff b := Std.TreeSet.isEmpty_iff_forall_contains

instance : ComparableRow SparseBits where
  same b c :=
    b.length == c.length && (b.on.toList.all c.on.contains && c.on.toList.all b.on.contains)
  same_iff b c := by
    rw [Bool.and_eq_true, beq_iff_eq, Bool.and_eq_true, List.all_eq_true, List.all_eq_true]
    simp only [Std.TreeSet.mem_toList]
    refine and_congr_right fun _ => ⟨fun h i => ?_, fun h => ?_⟩
    · exact Bool.eq_iff_iff.2 ⟨h.1 i, h.2 i⟩
    · exact ⟨fun i hi => (h i).symm.trans hi, fun i hi => (h i).trans hi⟩

end SparseBits

end SnapshotPlan
