/-!
# Variables and literals

A propositional variable is a positive number, and a literal is a variable together with a sign.
Both are written as integers: a variable as itself, a literal as its variable or the negative of
it.  A variable never exceeds `Var.maxId`, so that every literal fits a signed 32-bit word.

## What is here

* `Var.ofId?`, `Var.ofIndex?` — the variables, by number (from one) and by position (from zero).
* `Lit.ofInt?`, `Lit.toInt` — literals as integers.  `Lit.ofInt?_toInt` and
  `Lit.toInt_of_ofInt?` state that neither loses anything.
* `Lit.negate` — the opposite literal; `Lit.toInt_negate` and `Lit.negate_negate`.
-/

set_option autoImplicit false

namespace SnapshotPlan

/-! ## Variables -/

/-- The largest variable that a signed 32-bit literal can name. -/
abbrev Var.maxId : Nat := 2147483647

/-- A propositional variable, known by a number between one and `Var.maxId`. -/
structure Var where
  id : Nat
  id_pos : 0 < id
  id_le : id ≤ Var.maxId
  deriving DecidableEq

namespace Var

instance : Hashable Var := ⟨fun v => hash v.id⟩

/-- The variable with the given number; there is none for zero and none above `maxId`. -/
def ofId? (n : Nat) : Option Var :=
  if h : 0 < n ∧ n ≤ maxId then some ⟨n, h.1, h.2⟩ else none

/-- The position of the variable in a table that starts at zero. -/
def index (v : Var) : Nat := v.id - 1

/-- The variable at a position, counted from zero. -/
def ofIndex? (i : Nat) : Option Var := ofId? (i + 1)

@[ext] theorem ext {v w : Var} (h : v.id = w.id) : v = w := by
  cases v; cases w; cases h; rfl

theorem ofId?_eq_some_iff {n : Nat} {v : Var} : ofId? n = some v ↔ v.id = n := by
  unfold ofId?
  split
  · next h =>
    rw [Option.some.injEq]
    exact ⟨fun e => e ▸ rfl, fun e => Var.ext e.symm⟩
  · next h =>
    constructor
    · intro e; cases e
    · intro e
      exact absurd ⟨e ▸ v.id_pos, e ▸ v.id_le⟩ h

theorem ofIndex?_eq_some_iff {i : Nat} {v : Var} : ofIndex? i = some v ↔ v.index = i := by
  have h := v.id_pos
  rw [ofIndex?, ofId?_eq_some_iff, index]
  omega

@[simp] theorem ofIndex?_index (v : Var) : ofIndex? v.index = some v :=
  ofIndex?_eq_some_iff.2 rfl

theorem index_inj {v w : Var} : v.index = w.index ↔ v = w := by
  refine ⟨fun h => ?_, congrArg index⟩
  have hv := ofIndex?_index v
  rw [h, ofIndex?_index] at hv
  exact (Option.some.inj hv).symm

theorem id_eq_index_succ (v : Var) : v.id = v.index + 1 :=
  (Nat.sub_add_cancel v.id_pos).symm

theorem index_lt (v : Var) : v.index < maxId := by
  have h := v.id_le
  rw [id_eq_index_succ] at h
  exact h

theorem ofIndex?_eq_none_iff {i : Nat} : ofIndex? i = none ↔ maxId ≤ i := by
  rw [ofIndex?, ofId?]
  split <;> simp <;> omega

/-- The variable's number in decimal digits. -/
def render (v : Var) : String := toString v.id

/-- The variable's number after the letter `v`. -/
def describe (v : Var) : String := "v" ++ v.render

end Var

/-! ## Literals -/

/-- A variable asserted (`positive`) or denied. -/
@[ext]
structure Lit where
  var : Var
  positive : Bool
  deriving DecidableEq, Hashable

/-- The literal that asserts the variable. -/
def Var.pos (v : Var) : Lit := ⟨v, true⟩

/-- The literal that denies the variable. -/
def Var.neg (v : Var) : Lit := ⟨v, false⟩

namespace Lit

/-- The literal as a signed number, never zero. -/
def toInt (l : Lit) : Int := if l.positive then (l.var.id : Int) else -(l.var.id : Int)

/-- The literal written as a signed number; zero and numbers beyond `Var.maxId` in size are none. -/
def ofInt? (x : Int) : Option Lit := (Var.ofId? x.natAbs).map fun v => ⟨v, decide (0 < x)⟩

/-- The opposite literal of the same variable. -/
def negate (l : Lit) : Lit := ⟨l.var, !l.positive⟩

@[simp] theorem negate_negate (l : Lit) : l.negate.negate = l := by
  cases l; simp [negate]

theorem toInt_negate (l : Lit) : l.negate.toInt = -l.toInt := by
  rcases l with ⟨v, _ | _⟩ <;> simp [negate, toInt]

theorem natAbs_toInt (l : Lit) : l.toInt.natAbs = l.var.id := by
  rcases l with ⟨v, _ | _⟩ <;> simp [toInt]

theorem toInt_pos_iff (l : Lit) : 0 < l.toInt ↔ l.positive = true := by
  have h := l.var.id_pos
  unfold toInt
  cases l.positive
  · simp
  · simpa using h

@[simp] theorem ofInt?_toInt (l : Lit) : ofInt? l.toInt = some l := by
  have h : Var.ofId? l.toInt.natAbs = some l.var := Var.ofId?_eq_some_iff.2 (natAbs_toInt l).symm
  have hp : decide (0 < l.toInt) = l.positive := by
    rw [Bool.eq_iff_iff, decide_eq_true_iff, toInt_pos_iff]
  simp [ofInt?, h, hp]

theorem toInt_of_ofInt? {x : Int} {l : Lit} (h : ofInt? x = some l) : l.toInt = x := by
  obtain ⟨v, hv, rfl⟩ := Option.map_eq_some_iff.1 h
  have hid := Var.ofId?_eq_some_iff.1 hv
  have hpos := v.id_pos
  by_cases hx : 0 < x <;> simp [toInt, hx] <;> omega

/-- A number is that of a literal iff its size is that of a variable. -/
theorem exists_toInt_eq_iff {x : Int} :
    (∃ l : Lit, l.toInt = x) ↔ 0 < x.natAbs ∧ x.natAbs ≤ Var.maxId := by
  constructor
  · rintro ⟨l, rfl⟩
    rw [natAbs_toInt]
    exact ⟨l.var.id_pos, l.var.id_le⟩
  · rintro ⟨hpos, hle⟩
    have hv : Var.ofId? x.natAbs = some ⟨x.natAbs, hpos, hle⟩ := Var.ofId?_eq_some_iff.2 rfl
    exact ⟨_, toInt_of_ofInt? (by rw [ofInt?, hv, Option.map_some])⟩

theorem toInt_inj {l k : Lit} : l.toInt = k.toInt ↔ l = k := by
  refine ⟨fun h => ?_, congrArg toInt⟩
  have hl := ofInt?_toInt l
  rw [h, ofInt?_toInt] at hl
  exact (Option.some.inj hl).symm

/-- The literal as a signed decimal number. -/
def render (l : Lit) : String := toString l.toInt

end Lit

end SnapshotPlan
