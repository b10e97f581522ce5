import Std.Data.HashMap
import SnapshotPlan.Encoding.Fault
import SnapshotPlan.World.Problem

/-!
# Numbering objects by variables

A registry gives each of its objects a variable, and the variables are `1, 2, …` without gaps: the
fluents in the order in which they were supplied, then the actions in theirs.  It is read in both
directions, and the two directions agree by construction: `Registry.find_iff` is a part of the
type.

## What is here

* `Registry.register`, `Registry.ofProblem` — numbering.
* `varOf`, `fluentVar`, `actionVar` — from objects to variables.
* `objectAt`, `objectOf` — from variables to objects.
-/

set_option autoImplicit false

namespace SnapshotPlan

/-- A numbering of objects, with the fluents first. -/
structure Registry where
  /-- The object of each variable, by position. -/
  objects : Array Object
  /-- The variable of each object. -/
  vars : Std.HashMap Object Var
  numFluents : Nat
  find_iff : ∀ (o : Object) (v : Var), vars[o]? = some v ↔ objects[v.index]? = some o

namespace Registry

/-! ## Numbering

An object is pushed with proof that it is new and that its variable is the next one.  This is
what keeps array and map inverse to each other, so a registry needs no check later on. -/

/-- No object yet, but so many fluents announced. -/
def blank (numFluents : Nat) : Registry where
  objects := #[]
  vars := ∅
  numFluents := numFluents
  find_iff := by simp

theorem find_iff_push (r : Registry) {o : Object} {v : Var} (fresh : r.vars[o]? = none)
    (hv : v.index = r.objects.size) (o' : Object) (v' : Var) :
    (r.vars.insert o v)[o']? = some v' ↔ (r.objects.push o)[v'.index]? = some o' := by
  have hr := r.find_iff o' v'
  rw [Std.HashMap.getElem?_insert, Array.getElem?_push]
  by_cases ho : o = o'
  · subst ho
    simp only [beq_self_eq_true, if_true, Option.some.injEq]
    constructor
    · rintro rfl
      simp [hv]
    · intro h
      split at h
      · next hi => exact Var.index_inj.1 (hv.trans hi.symm)
      · rw [← hr, fresh] at h
        cases h
  · simp only [beq_iff_eq, ho, if_false]
    split
    · next hi =>
      rw [hr, hi]
      simp [ho]
    · exact hr

/-- Gives one more object the next variable. -/
def push (r : Registry) (o : Object) (v : Var) (fresh : r.vars[o]? = none)
    (hv : v.index = r.objects.size) : Registry where
  objects := r.objects.push o
  vars := r.vars.insert o v
  numFluents := r.numFluents
  find_iff := r.find_iff_push fresh hv

/-- Numbers the listed objects in order.  A missing variable is reported before a repeated
object. -/
def extend (required : Nat) (r : Registry) : List Object → Except PlanFault Registry
  | [] => .ok r
  | o :: os =>
    match hv : Var.ofIndex? r.objects.size with
    | none => .error (.overflow required Var.maxId)
    | some v =>
      match fresh : r.vars[o]? with
      | some _ => .error (.duplicate o)
      | none => extend required (r.push o v fresh (Var.ofIndex?_eq_some_iff.1 hv)) os

/-- The objects in the order of their variables: the fluents, then the actions. -/
def arrange (objects : List Object) : List Object :=
  objects.filter Object.isFluent ++ objects.filter Object.isAction

/-- Numbers the given objects. -/
def register (objects : List Object) : Except PlanFault Registry :=
  extend objects.length (blank (objects.filter Object.isFluent).length) (arrange objects)

/-- Numbers all fluents and all actions of a problem. -/
def ofProblem (p : Problem) : Except PlanFault Registry :=
  register (p.fluentIds.map .fluent ++ p.actionIds.map .action)

/-! ## Reading the numbering -/

/-- The number of objects, which is also the largest variable. -/
def size (r : Registry) : Nat := r.objects.size

/-- The number of actions. -/
def numActions (r : Registry) : Nat := r.size - r.numFluents

/-- The variable of an object. -/
def varOf (r : Registry) (o : Object) : Except PlanFault Var :=
  match r.vars[o]? with
  | some v => .ok v
  | none => .error (.unregistered o)

/-- The variable of a fluent. -/
def fluentVar (r : Registry) (f : FluentId) : Except PlanFault Var := r.varOf (.fluent f)

/-- The variable of an action. -/
def actionVar (r : Registry) (a : ActionId) : Except PlanFault Var := r.varOf (.action a)

/-- The object of the variable with the given number. -/
def objectAt (r : Registry) (index : Int) : Except PlanFault Object :=
  if index ≤ 0 then .error (.outOfRange index r.size)
  else
    match r.objects[(index - 1).toNat]? with
    | some o => .ok o
    | none => .error (.outOfRange index r.size)

/-- The object of a variable. -/
def objectOf (r : Registry) (v : Var) : Except PlanFault Object := r.objectAt v.id

theorem varOf_eq_ok_iff {r : Registry} {o : Object} {v : Var} :
    r.varOf o = .ok v ↔ r.objects[v.index]? = some o := by
  rw [← r.find_iff, varOf]
  cases r.vars[o]? <;> simp

theorem varOf_eq_error_iff {r : Registry} {o : Object} {fault : PlanFault} :
    r.varOf o = .error fault ↔ (∀ v, r.varOf o ≠ .ok v) ∧ fault = .unregistered o := by
  rw [varOf]
  cases r.vars[o]? <;> simp [eq_comm]

theorem objectAt_eq_ok_iff {r : Registry} {i : Int} {o : Object} :
    r.objectAt i = .ok o ↔ 0 < i ∧ r.objects[(i - 1).toNat]? = some o := by
  rw [objectAt]
  split
  · next h => simp [Int.not_lt.2 h]
  · next h =>
    have hi : 0 < i := Int.not_le.1 h
    cases r.objects[(i - 1).toNat]? <;> simp [hi]

theorem objectAt_eq_error_iff {r : Registry} {i : Int} {fault : PlanFault} :
    r.objectAt i = .error fault ↔ ¬ (0 < i ∧ i ≤ r.size) ∧ fault = .outOfRange i r.size := by
  rw [objectAt]
  split
  · next h => simp [Int.not_lt.2 h, eq_comm]
  · next h =>
    have hi : 0 < i := Int.not_le.1 h
    rcases hg : r.objects[(i - 1).toNat]? with _ | o
    · have hout : ¬ i ≤ r.size := by
        have := Array.getElem?_eq_none_iff.1 hg
        simp only [size]
        omega
      simp [hout, eq_comm]
    · have hin : i ≤ r.size := by
        have := (Array.getElem?_eq_some_iff.1 hg).1
        simp only [size]
        omega
      simp [hi, hin]

theorem objectOf_eq_ok_iff {r : Registry} {v : Var} {o : Object} :
    r.objectOf v = .ok o ↔ r.objects[v.index]? = some o := by
  have hv : ((v.id : Int) - 1).toNat = v.index := by rw [v.id_eq_index_succ]; omega
  have hpos : (0 : Int) < v.id := Int.natCast_pos.2 v.id_pos
  rw [objectOf, objectAt_eq_ok_iff, hv]
  exact and_iff_right hpos

/-- **The two directions of the numbering agree.** -/
theorem varOf_eq_ok_iff_objectOf {r : Registry} {o : Object} {v : Var} :
    r.varOf o = .ok v ↔ r.objectOf v = .ok o := by
  rw [varOf_eq_ok_iff, objectOf_eq_ok_iff]

theorem id_le_of_varOf {r : Registry} {o : Object} {v : Var} (h : r.varOf o = .ok v) :
    v.id ≤ r.size := by
  have hlt := (Array.getElem?_eq_some_iff.1 (varOf_eq_ok_iff.1 h)).1
  rw [v.id_eq_index_succ]
  exact hlt

/-- All variables with their objects, in order. -/
def toList (r : Registry) : List (Var × Object) :=
  r.objects.toList.zipIdx.filterMap fun p => (Var.ofIndex? p.2).map fun v => (v, p.1)

end Registry

end SnapshotPlan
