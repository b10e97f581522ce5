import SnapshotPlan.Logic.Clause

/-!
# Variables and literals in machine words

A variable is kept in an unsigned word of 32 bits and a literal in a signed one, and neither word is
ever zero.  Words have limits: a sum or an opposite may not fit, and then the computation stops with
a `WordFault`.

## What is here

* `checkedAdd`, `checkedNeg`, `narrow?`, `magnitude` — arithmetic with words.
* `VarWord`, `LitWord`, `ClauseWord` — variables, literals and clauses in words, and how they are
  made from numbers and from each other.
* `Var.word`, `Lit.word`, `Clause.word` — the words of variables, literals and clauses.
-/

set_option autoImplicit false

namespace SnapshotPlan

/-! ## Arithmetic with words

Sums and opposites are checked, and a result that does not fit ends the computation.  Conversions
to fewer bits fail quietly instead. -/

/-- Why a computation with words stops. -/
inductive WordFault where
  /-- A sum does not fit. -/
  | addOverflow
  /-- An opposite does not fit. -/
  | negOverflow
  deriving DecidableEq

/-- The wording of the fault. -/
def WordFault.message : WordFault → String
  | addOverflow => "attempt to add with overflow"
  | negOverflow => "attempt to negate with overflow"

/-- The sum, if it fits. -/
def checkedAdd (a b : UInt64) : Except WordFault UInt64 :=
  if a.toNat + b.toNat < UInt64.size then .ok (a + b) else .error .addOverflow

/-- The opposite, if it fits. -/
def checkedNeg (x : Int32) : Except WordFault Int32 :=
  if x = Int32.minValue then .error .negOverflow else .ok (-x)

/-- The same number in 32 bits, if it fits. -/
def narrow? (n : UInt64) : Option UInt32 := if n.toNat < UInt32.size then some n.toUInt32 else none

/-- The size of a signed number, which always fits an unsigned word. -/
def magnitude (x : Int32) : UInt32 := x.abs.toUInt32

theorem checkedAdd_eq_ok_iff {a b c : UInt64} :
    checkedAdd a b = .ok c ↔ a.toNat + b.toNat = c.toNat := by
  have hc : c.toNat < UInt64.size := c.toNat_lt
  have hsum : (a + b).toNat = (a.toNat + b.toNat) % UInt64.size := UInt64.toNat_add a b
  rw [checkedAdd]
  split
  · next h => rw [Except.ok.injEq, ← UInt64.toNat_inj, hsum, Nat.mod_eq_of_lt h]
  · next h => exact iff_of_false nofun fun e => h (e ▸ hc)

theorem checkedNeg_eq_ok_iff {x y : Int32} :
    checkedNeg x = .ok y ↔ x ≠ Int32.minValue ∧ -x = y := by
  rw [checkedNeg]
  split
  · next h => exact iff_of_false nofun fun e => e.1 h
  · next h => rw [Except.ok.injEq]; exact (and_iff_right h).symm

theorem neg_ne_zero {x : Int32} (h : x ≠ 0) : -x ≠ 0 := fun e => h <| by
  rw [← Int32.neg_neg (a := x), e]
  rfl

theorem toInt_toInt32 {n : UInt32} (h : n.toNat ≤ Var.maxId) : n.toInt32.toInt = n.toNat := by
  show n.toBitVec.toInt = n.toBitVec.toNat
  refine BitVec.toInt_eq_toNat_of_lt ?_
  show 2 * n.toNat < 2 ^ 32
  unfold Var.maxId at h
  omega

theorem toNat_magnitude (x : Int32) : (magnitude x).toNat = x.toInt.natAbs := by
  show x.toBitVec.abs.toNat = x.toBitVec.toInt.natAbs
  rw [BitVec.toNat_abs, BitVec.toInt_eq_msb_cond]
  have := x.toBitVec.isLt
  split <;> omega

/-! ## Variables -/

/-- A variable in a word. -/
@[ext]
structure VarWord where
  id : UInt32
  ne_zero : id ≠ 0
  deriving DecidableEq

namespace VarWord

/-- The variable with the given number; there is none for zero and none above `Var.maxId`. -/
def ofId? (n : UInt32) : Option VarWord :=
  if Var.maxId < n.toNat then none else if h : n ≠ 0 then some ⟨n, h⟩ else none

/-- The position of the variable, counted from zero. -/
def index (v : VarWord) : UInt64 := (v.id - 1).toUInt64

/-- The variable at a position.  The position is made a number before anything is said about its
size. -/
def ofIndex? (i : UInt64) : Except WordFault (Option VarWord) :=
  (checkedAdd i 1).map fun n => (narrow? n).bind ofId?

/-- Variables are ordered by their numbers. -/
instance : LE VarWord := ⟨fun v w => v.id ≤ w.id⟩

instance (v w : VarWord) : Decidable (v ≤ w) := inferInstanceAs (Decidable (v.id ≤ w.id))

instance : Max VarWord := maxOfLe

end VarWord

/-! ## Literals -/

/-- A literal in a word: the number of a variable, with a sign. -/
@[ext]
structure LitWord where
  number : Int32
  ne_zero : number ≠ 0
  deriving DecidableEq

namespace LitWord

/-- Literals are ordered by their numbers. -/
instance : LE LitWord := ⟨fun l k => l.number ≤ k.number⟩

instance (l k : LitWord) : Decidable (l ≤ k) := inferInstanceAs (Decidable (l.number ≤ k.number))

/-- The literal written as a signed number; zero and the least number are none. -/
def ofInt? (x : Int32) : Option LitWord :=
  if x = Int32.minValue then none else if h : x ≠ 0 then some ⟨x, h⟩ else none

/-- The variable of the literal. -/
def var (l : LitWord) : VarWord where
  id := magnitude l.number
  ne_zero := fun h => l.ne_zero <| by
    rw [← UInt32.toNat_inj, toNat_magnitude] at h
    exact Int32.toInt_inj.1 (Int.natAbs_eq_zero.1 h)

/-- The literal asserts its variable. -/
def positive (l : LitWord) : Bool := decide (0 < l.number)

/-- The opposite literal. -/
def negate (l : LitWord) : Except WordFault LitWord :=
  match h : checkedNeg l.number with
  | .error fault => .error fault
  | .ok y => .ok ⟨y, (checkedNeg_eq_ok_iff.1 h).2 ▸ neg_ne_zero l.ne_zero⟩

/-- The literal that asserts or denies the variable. -/
def ofVar (v : VarWord) (positive : Bool) : Except WordFault LitWord :=
  let l : LitWord := ⟨v.id.toInt32, fun h => v.ne_zero (congrArg Int32.toUInt32 h)⟩
  if positive then .ok l else l.negate

end LitWord

/-! ## Clauses -/

/-- A clause in words. -/
structure ClauseWord where
  lits : List LitWord
  deriving DecidableEq

namespace ClauseWord

/-- The literals as signed numbers. -/
def toInts (c : ClauseWord) : List Int32 := c.lits.map LitWord.number

/-- The clause with the given literals, if every number is one. -/
def ofInts? (xs : List Int32) : Option ClauseWord := (xs.mapM LitWord.ofInt?).map ClauseWord.mk

/-- The largest variable of the clause; the empty clause has none. -/
def maxVar? (c : ClauseWord) : Option VarWord := (c.lits.map LitWord.var).max?

end ClauseWord

/-! ## The words of variables, literals and clauses -/

theorem Var.id_lt (v : Var) : v.id < UInt32.size := Nat.lt_of_le_of_lt v.id_le (by decide)

/-- The word of a variable. -/
def Var.word (v : Var) : VarWord where
  id := UInt32.ofNatLT v.id v.id_lt
  ne_zero := fun h => Nat.ne_of_gt v.id_pos (congrArg UInt32.toNat h)

theorem Lit.toInt_ofInt (l : Lit) : (Int32.ofInt l.toInt).toInt = l.toInt := by
  have hsize := l.natAbs_toInt
  have hmax := l.var.id_le
  unfold Var.maxId at hmax
  exact Int32.toInt_ofInt_of_le (by omega) (by omega)

/-- The word of a literal. -/
def Lit.word (l : Lit) : LitWord where
  number := Int32.ofInt l.toInt
  ne_zero := fun h => by
    have hzero : l.toInt = 0 := l.toInt_ofInt.symm.trans (congrArg Int32.toInt h)
    have hpos := l.var.id_pos
    rw [← l.natAbs_toInt, hzero] at hpos
    exact absurd hpos (Nat.lt_irrefl 0)

/-- The word of each literal of a clause. -/
def Clause.word (c : Clause) : ClauseWord := ⟨c.lits.map Lit.word⟩

end SnapshotPlan
