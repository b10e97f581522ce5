/-!
# Names for fluents and actions

A fluent is a ground proposition and an action a ground operator.  Inside a problem both are known
by a 32-bit number, counted from zero in order of declaration.  `ofNat` keeps the low 32 bits of a
position; `FluentId.toNat_ofNat` says that below 2³² nothing is lost.
-/

set_option autoImplicit false

namespace SnapshotPlan

/-! ## Fluents -/

/-- The number of a fluent. -/
structure FluentId where
  index : UInt32
  deriving DecidableEq, Hashable

namespace FluentId

/-- The fluent at a position, modulo 2³². -/
def ofNat (n : Nat) : FluentId := ⟨UInt32.ofNat n⟩

/-- The position of the fluent. -/
def toNat (f : FluentId) : Nat := f.index.toNat

/-- Fluents are ordered by position. -/
instance : LT FluentId := ⟨fun f g => f.toNat < g.toNat⟩

instance (f g : FluentId) : Decidable (f < g) := inferInstanceAs (Decidable (f.toNat < g.toNat))

theorem lt_iff {f g : FluentId} : f < g ↔ f.toNat < g.toNat := Iff.rfl

theorem toNat_inj {f g : FluentId} : f.toNat = g.toNat ↔ f = g :=
  ⟨fun h => congrArg FluentId.mk (UInt32.toNat_inj.1 h), congrArg toNat⟩

theorem toNat_ofNat {n : Nat} (h : n < UInt32.size) : (ofNat n).toNat = n :=
  Nat.mod_eq_of_lt h

theorem ofNat_toNat (f : FluentId) : ofNat f.toNat = f :=
  toNat_inj.1 (toNat_ofNat (UInt32.toNat_lt f.index))

theorem toNat_lt (f : FluentId) : f.toNat < UInt32.size := UInt32.toNat_lt f.index

/-- The short name of the fluent. -/
def render (f : FluentId) : String := "f" ++ toString f.toNat

/-- The long name of the fluent. -/
def describe (f : FluentId) : String := "FluentId(" ++ toString f.toNat ++ ")"

end FluentId

/-! ## Actions -/

/-- The number of an action. -/
structure ActionId where
  index : UInt32
  deriving DecidableEq, Hashable

namespace ActionId

/-- The action at a position, modulo 2³². -/
def ofNat (n : Nat) : ActionId := ⟨UInt32.ofNat n⟩

/-- The position of the action. -/
def toNat (a : ActionId) : Nat := a.index.toNat

theorem toNat_inj {a b : ActionId} : a.toNat = b.toNat ↔ a = b :=
  ⟨fun h => congrArg ActionId.mk (UInt32.toNat_inj.1 h), congrArg toNat⟩

theorem toNat_ofNat {n : Nat} (h : n < UInt32.size) : (ofNat n).toNat = n :=
  Nat.mod_eq_of_lt h

theorem ofNat_toNat (a : ActionId) : ofNat a.toNat = a :=
  toNat_inj.1 (toNat_ofNat (UInt32.toNat_lt a.index))

/-- The short name of the action. -/
def render (a : ActionId) : String := "a" ++ toString a.toNat

/-- The long name of the action. -/
def describe (a : ActionId) : String := "ActionId(" ++ toString a.toNat ++ ")"

end ActionId

end SnapshotPlan
