import SnapshotPlan.Proofs.Encoding.Decoding
import SnapshotPlan.Proofs.Encoding.Numbering
import SnapshotPlan.Proofs.Logic.Models

/-!
# Decoding undoes numbering

A value of an object can be written as a signed number: the variable of the object, with the sign
of the value.  Decoding reads such numbers back.  It takes any signed numbers, among them zero,
numbers beyond the last variable, and the least one of 64 bits, whose size does not fit; it stops at
the first number that is no variable of the registry, and otherwise loses nothing.

## What is here

* `Registry.Covers` — the number is a variable of the registry, or the opposite of one.
* `Registry.encodeValue`, `Registry.encodeValuation` — values of objects as signed numbers.
* `decodeInts_eq_ok_iff` — **decoding numbers is the inverse of writing them.**
* `decodeInts_eq_error_iff` — it fails at the first number that is not covered.
* `decode_eq_decodeInts` — literals are decoded like their numbers.
* `decode_lits_ofValues` — a list of values is decoded in the order of the registry.
* `Plan.map_actions_ofValuation` — a plan is the true actions of a valuation, one by one.
* `decode_inverts_register` — all of it in one statement.
-/

set_option autoImplicit false

namespace SnapshotPlan
namespace Registry

variable {r : Registry}

/-- The number names a variable of the registry, with either sign. -/
def Covers (r : Registry) (x : Int) : Prop := 1 ≤ x.natAbs ∧ x.natAbs ≤ r.size

instance (x : Int) : Decidable (r.Covers x) := inferInstanceAs (Decidable (_ ∧ _))

/-! ## One number

A number that is covered belongs to one object and gives it one value, and that value is written
as the number again.  Any other number is refused, with itself in the refusal. -/

/-- The value of an object as a number: its variable, with the sign of the value. -/
def encodeValue (r : Registry) (q : Object × Bool) : Except PlanFault Int :=
  (r.varOf q.1).map fun v => (Lit.mk v q.2).toInt

/-- The object of a signed number and the number's sign, as `decodeInts` reads them. -/
def decodeInt (r : Registry) (x : Int) : Except PlanFault (Object × Bool) :=
  (r.objectAt (indexOfInt x)).map fun o => (o, decide (0 < x))

theorem encodeValue_eq_ok_iff {q : Object × Bool} {x : Int} :
    r.encodeValue q = .ok x ↔ ∃ v, r.varOf q.1 = .ok v ∧ (Lit.mk v q.2).toInt = x := by
  rw [encodeValue]
  cases r.varOf q.1 <;> simp [Except.map]

theorem decodeInt_eq_error_iff_objectAt {x : Int} {fault : PlanFault} :
    r.decodeInt x = .error fault ↔ r.objectAt (indexOfInt x) = .error fault := by
  rw [decodeInt]
  cases r.objectAt (indexOfInt x) <;> simp [Except.map]

/-- A literal is small enough to have its variable as its index. -/
theorem indexOfInt_toInt (l : Lit) : indexOfInt l.toInt = l.var.id := by
  have hmin : l.toInt ≠ Int64.minValue.toInt := fun h => by
    have hsize : l.var.id = 2 ^ 63 := by rw [← l.natAbs_toInt, h]; decide
    have hmax : Var.maxId < 2 ^ 63 := by decide
    have hle := l.var.id_le
    omega
  rw [indexOfInt, if_neg hmin, l.natAbs_toInt]

/-- **Literals are read like their numbers.** -/
theorem decodeInt_toInt (l : Lit) :
    r.decodeInt l.toInt = (r.objectOf l.var).map fun o => (o, l.positive) := by
  have hsign : decide (0 < l.toInt) = l.positive := by
    rw [Bool.eq_iff_iff, decide_eq_true_iff, l.toInt_pos_iff]
  rw [decodeInt, indexOfInt_toInt, hsign, objectOf]

section Bounded

variable (hr : r.size ≤ Var.maxId)

include hr

/-- The least number of 64 bits is beyond every registry, whichever index it is given. -/
theorem index_mem_iff_covers {x : Int} :
    (0 < indexOfInt x ∧ indexOfInt x ≤ r.size) ↔ r.Covers x := by
  rw [indexOfInt, Covers]
  split
  · next hmin =>
    subst hmin
    have hsize : Int64.minValue.toInt.natAbs = 2 ^ 63 := by decide
    have hneg : Int64.minValue.toInt = -2 ^ 63 := by decide
    have hmax : Var.maxId < 2 ^ 63 := by decide
    omega
  · omega

/-- A number that is covered is a literal. -/
theorem exists_lit_of_covers {x : Int} (hx : r.Covers x) : ∃ l : Lit, l.toInt = x :=
  Lit.exists_toInt_eq_iff.2 ⟨hx.1, Nat.le_trans hx.2 hr⟩

theorem decodeInt_eq_error_iff {x : Int} {fault : PlanFault} :
    r.decodeInt x = .error fault ↔ ¬ r.Covers x ∧ fault = .outOfRange (indexOfInt x) r.size := by
  rw [decodeInt_eq_error_iff_objectAt, objectAt_eq_error_iff, index_mem_iff_covers hr]

theorem exists_decodeInt_iff {x : Int} : (∃ q, r.decodeInt x = .ok q) ↔ r.Covers x := by
  rcases hx : r.decodeInt x with fault | q
  · exact iff_of_false (fun h => nomatch h.choose_spec) ((decodeInt_eq_error_iff hr).1 hx).1
  · refine iff_of_true ⟨q, rfl⟩ (Decidable.byContradiction fun hout => ?_)
    rw [(decodeInt_eq_error_iff hr).2 ⟨hout, rfl⟩] at hx
    cases hx

/-- **Reading a number and writing one are inverse.** -/
theorem decodeInt_eq_ok_iff_encodeValue {x : Int} {q : Object × Bool} :
    r.decodeInt x = .ok q ↔ r.encodeValue q = .ok x := by
  -- On either side, the number is that of a literal.
  have hlit : ∀ l : Lit, r.decodeInt l.toInt = .ok q ↔ r.encodeValue q = .ok l.toInt := fun l => by
    rw [decodeInt_toInt, encodeValue_eq_ok_iff]
    constructor
    · intro h
      rcases ho : r.objectOf l.var with fault | o
      · rw [ho] at h
        cases h
      · rw [ho] at h
        cases h
        exact ⟨l.var, varOf_eq_ok_iff_objectOf.2 ho, rfl⟩
    · rintro ⟨v, hv, hl⟩
      obtain rfl := Lit.toInt_inj.1 hl
      rw [varOf_eq_ok_iff_objectOf.1 hv]
      rfl
  constructor
  · intro h
    obtain ⟨l, rfl⟩ := exists_lit_of_covers hr ((exists_decodeInt_iff hr).1 ⟨q, h⟩)
    exact (hlit l).1 h
  · intro h
    obtain ⟨v, -, rfl⟩ := encodeValue_eq_ok_iff.1 h
    exact (hlit _).2 h

end Bounded

/-! ## Lists of numbers -/

/-- Values of objects as numbers, in order. -/
def encodeValuation (r : Registry) (v : Valuation) : Except PlanFault (List Int) :=
  v.mapM r.encodeValue

/-- **Literals and their numbers are decoded alike**, with the same failures. -/
theorem decode_eq_decodeInts (lits : List Lit) :
    r.decode lits = r.decodeInts (lits.map Lit.toInt) := by
  have hone : (fun l : Lit => (r.objectOf l.var).map fun o => (o, l.positive)) =
      r.decodeInt ∘ Lit.toInt := funext fun l => (decodeInt_toInt l).symm
  rw [decode, hone, ← List.mapM_map]
  rfl

section Bounded

variable (hr : r.size ≤ Var.maxId)

include hr

/-- **Decoding numbers is the inverse of writing them.** -/
theorem decodeInts_eq_ok_iff {xs : List Int} {v : Valuation} :
    r.decodeInts xs = .ok v ↔ r.encodeValuation v = .ok xs := by
  have hdecode : r.decodeInts xs = .ok v ↔ List.Forall₂ (fun x q => r.decodeInt x = .ok q) xs v :=
    mapM_eq_ok_iff
  rw [hdecode, encodeValuation, mapM_eq_ok_iff]
  simp only [decodeInt_eq_ok_iff_encodeValue hr]
  exact ⟨List.Forall₂.flip, List.Forall₂.flip⟩

/-- **Decoding fails at the first number that is not covered.** -/
theorem decodeInts_eq_error_iff {xs : List Int} {fault : PlanFault} :
    r.decodeInts xs = .error fault ↔ ∃ before x after, xs = before ++ x :: after ∧
      (∀ y ∈ before, r.Covers y) ∧ ¬ r.Covers x ∧ fault = .outOfRange (indexOfInt x) r.size := by
  have hdecode : r.decodeInts xs = .error fault ↔ ∃ before x after, xs = before ++ x :: after ∧
      (∀ y ∈ before, ∃ q, r.decodeInt y = .ok q) ∧ r.decodeInt x = .error fault := mapM_eq_error_iff
  rw [hdecode]
  simp only [exists_decodeInt_iff hr, decodeInt_eq_error_iff hr]

theorem exists_decodeInts_iff {xs : List Int} :
    (∃ v, r.decodeInts xs = .ok v) ↔ ∀ x ∈ xs, r.Covers x := by
  rcases hxs : r.decodeInts xs with fault | v
  · obtain ⟨before, x, after, rfl, -, hx, -⟩ := (decodeInts_eq_error_iff hr).1 hxs
    refine iff_of_false (fun h => nomatch h.choose_spec) fun h => hx (h x ?_)
    exact List.mem_append_right _ List.mem_cons_self
  · refine iff_of_true ⟨v, rfl⟩ fun x hx => ?_
    obtain ⟨q, -, hq⟩ := exists_right_of_forall₂ (mapM_eq_ok_iff.1 hxs) hx
    exact (exists_decodeInt_iff hr).1 ⟨q, hq⟩

/-- **A list of values is decoded in the order of the registry.** -/
theorem decode_lits_ofValues {bs : List Bool} (hbs : bs.length = r.size) :
    r.decode (Model.ofValues bs).lits = .ok (r.objects.toList.zip bs) := by
  have hobjects : r.objects.toList.length = r.size := Array.length_toList
  have hlits : (Model.ofValues bs).lits.length = r.size := by
    rw [Model.length_ofValues, hbs, Nat.min_eq_left hr]
  rw [decode_eq_ok_iff, List.forall₂_iff_get]
  refine ⟨by rw [hlits, List.length_zip, hobjects, hbs, Nat.min_self], fun i hi hi' => ?_⟩
  obtain ⟨hindex, hvalue⟩ := Model.getElem?_ofValues_iff.1 (List.getElem?_eq_getElem hi)
  have hi'' : i < r.objects.size := by rw [hlits] at hi; exact hi
  have hbi : i < bs.length := by rw [hbs]; exact hi''
  simp only [List.get_eq_getElem, List.getElem_zip, Array.getElem_toList]
  rw [hindex]
  rw [List.getElem?_eq_getElem hbi] at hvalue
  exact ⟨Array.getElem?_eq_getElem hi'', (Option.some.inj hvalue).symm⟩

end Bounded
end Registry

/-! ## The plan of a valuation -/

/-- **A plan is the true actions of the valuation**, in order and with repeats. -/
theorem Plan.map_actions_ofValuation (v : Valuation) :
    (ofValuation v).actions.map (fun a => (Object.action a, true)) =
      v.filter fun q => q.1.isAction && q.2 := by
  rw [ofValuation, List.map_filterMap, ← List.filterMap_eq_filter]
  refine List.filterMap_congr fun q _ => ?_
  rcases q with ⟨_ | a, _ | _⟩ <;> rfl

/-! ## In one statement -/

namespace Registry

/-- **Decoding undoes numbering.**  Numbers are decoded iff each of them is a variable of the
registry or the opposite of one; otherwise the first that is not is to blame, by its size, except
that the least number of 64 bits is named as it is.  What is decoded has the length and order of the
numbers and writing it gives them back.  Literals are decoded like their numbers.  A model of one
value for each object gives the objects these values, and the plan of any valuation is its true
actions. -/
theorem decode_inverts_register {objects : List Object} {r : Registry}
    (hr : register objects = .ok r) :
    (∀ xs : List Int,
      ((∃ v, r.decodeInts xs = .ok v) ↔ ∀ x ∈ xs, 1 ≤ x.natAbs ∧ x.natAbs ≤ r.size) ∧
      (∀ fault, r.decodeInts xs = .error fault ↔ ∃ before x after, xs = before ++ x :: after ∧
        (∀ y ∈ before, 1 ≤ y.natAbs ∧ y.natAbs ≤ r.size) ∧ ¬ (1 ≤ x.natAbs ∧ x.natAbs ≤ r.size) ∧
        fault = .outOfRange (if x = Int64.minValue.toInt then x else x.natAbs) r.size) ∧
      ∀ v, (r.decodeInts xs = .ok v ↔ r.encodeValuation v = .ok xs) ∧
        (r.decodeInts xs = .ok v → v.length = xs.length)) ∧
    (∀ lits : List Lit, r.decode lits = r.decodeInts (lits.map Lit.toInt)) ∧
    (∀ bs : List Bool, bs.length = r.size →
      r.decode (Model.ofValues bs).lits = .ok ((arrange objects).zip bs)) ∧
    ∀ v : Valuation, (Plan.ofValuation v).actions.map (fun a => (Object.action a, true)) =
      v.filter fun q => q.1.isAction && q.2 := by
  obtain ⟨hobjects, -, hmax⟩ := objects_of_register hr
  refine ⟨fun xs => ⟨exists_decodeInts_iff hmax, fun fault => decodeInts_eq_error_iff hmax,
    fun v => ⟨decodeInts_eq_ok_iff hmax, fun h => ?_⟩⟩, decode_eq_decodeInts, fun bs hbs => ?_,
    Plan.map_actions_ofValuation⟩
  · exact (mapM_eq_ok_iff.1 h).length_eq.symm
  · rw [← hobjects]
    exact decode_lits_ofValues hmax hbs

/-- Two fluents and an action.  The action is denied twice; zero, a number beyond the last variable
and the least number of 64 bits are none. -/
theorem decode_inverts_register_trio : ∃ r,
    register [.action (.ofNat 0), .fluent (.ofNat 0), .fluent (.ofNat 1)] = .ok r ∧
    r.decodeInts [-3, 1, -3] = .ok [(.action (.ofNat 0), false), (.fluent (.ofNat 0), true),
      (.action (.ofNat 0), false)] ∧
    r.decodeInts [2, 0, 4] = .error (.outOfRange 0 3) ∧
    r.decodeInts [-4, 0] = .error (.outOfRange 4 3) ∧
    r.decodeInts [Int64.minValue.toInt] = .error (.outOfRange Int64.minValue.toInt 3) ∧
    r.decode (Model.ofValues [true, false, true]).lits = .ok [(.fluent (.ofNat 0), true),
      (.fluent (.ofNat 1), false), (.action (.ofNat 0), true)] := by
  obtain ⟨r, hr⟩ := register_eq_ok_iff.2 <| forall_refusalAt?_eq_none_iff.2 <|
    show (arrange [.action (.ofNat 0), .fluent (.ofNat 0), .fluent (.ofNat 1)]).Nodup ∧ _ by decide
  have hnum := numbers_of_register hr
  have hsize : r.size = 3 := hnum.size_eq
  have hvalue : ∀ (i : Nat) (hi : 0 < i) (hmax : i ≤ Var.maxId) (o : Object) (value : Bool),
      (arrange [.action (.ofNat 0), .fluent (.ofNat 0), .fluent (.ofNat 1)])[i - 1]? = some o →
        r.encodeValue (o, value) = .ok (Lit.mk ⟨i, hi, hmax⟩ value).toInt := by
    intro i hi hmax o value ho
    refine encodeValue_eq_ok_iff.2 ⟨⟨i, hi, hmax⟩, (hnum.varOf_iff _ _).2 ?_, rfl⟩
    refine (hnum.objectAt_iff _ _).2 ⟨Int.ofNat_le.2 hi, ?_⟩
    rwa [show ((i : Int) - 1).toNat = i - 1 by omega]
  obtain ⟨hints, -, hmodel, -⟩ := decode_inverts_register hr
  rw [hsize] at hmodel
  simp only [hsize] at hints
  refine ⟨r, hr, ?_, ?_, ?_, ?_, hmodel _ rfl⟩
  · refine ((hints _).2.2 _).1.2 (mapM_eq_ok_iff.2 ?_)
    have haction := hvalue 3 (by decide) (by decide) (.action (.ofNat 0)) false rfl
    have hfluent := hvalue 1 (by decide) (by decide) (.fluent (.ofNat 0)) true rfl
    exact .cons haction (.cons hfluent (.cons haction .nil))
  · exact ((hints _).2.1 _).2 ⟨[2], 0, [4], rfl, by decide, by decide, rfl⟩
  · exact ((hints _).2.1 _).2 ⟨[], -4, [0], rfl, nofun, by decide, rfl⟩
  · exact ((hints _).2.1 _).2 ⟨[], _, [], rfl, nofun, by decide, by rw [if_pos rfl]⟩

end Registry
end SnapshotPlan
