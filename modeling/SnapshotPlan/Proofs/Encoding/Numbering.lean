import Mathlib.Data.List.Nodup
import Mathlib.Data.Nat.Find
import SnapshotPlan.Encoding.Registry
import SnapshotPlan.Proofs.Logic.Models

/-!
# How a registry numbers objects

`Registry.register` walks over the fluents and then the actions it is given, and it keeps an array
and a hash map in step on the way.  This file says what comes of that walk.

## What is here

* `Registry.refusalAt?` — what is wrong with a position of a list of objects, read off the list
  alone.  `forall_refusalAt?_eq_none_iff`: nothing is wrong anywhere iff the objects are distinct
  and there are enough variables for them.
* `extend_eq_ok` and `extend_eq_error` — the walk as a whole: it ends with all objects, or at the
  first position with which something is wrong.
* `Registry.Numbers` — the properties of a numbering, and `numbers_of_register`: a registry that
  `register` returns has them.
* `exists_varOf_of_ofProblem` — the variables of a problem's fluents and actions.
* `register_numbers` — all of it in one statement.
-/

set_option autoImplicit false

namespace SnapshotPlan
namespace Registry

/-! ## What can be wrong with a position

The walk finds fault with a position when it gets there.  Whether it will can be seen from the
list alone, so the walk need not be mentioned in what is claimed about refusals. -/

/-- What is wrong with position `i` of a list of objects: there is no variable left for it, or else
its object stands earlier in the list as well. -/
def refusalAt? (os : List Object) (i : Nat) : Option PlanFault :=
  match os[i]? with
  | none => none
  | some o =>
    if Var.maxId ≤ i then some (.overflow os.length Var.maxId)
    else if o ∈ os.take i then some (.duplicate o)
    else none

theorem refusalAt?_eq_none_iff {os : List Object} {i : Nat} :
    refusalAt? os i = none ↔ ∀ o, os[i]? = some o → i < Var.maxId ∧ o ∉ os.take i := by
  rw [refusalAt?]
  split
  · next h => simp [h]
  · next o h =>
    rw [h]
    simp only [Option.some.injEq, forall_eq']
    split
    · next hmax => simp [Nat.not_lt.2 hmax]
    · next hmax => split <;> simp_all

/-- An object of the list stands earlier as well iff the list has repeats. -/
theorem nodup_iff_not_mem_take {os : List Object} :
    os.Nodup ↔ ∀ i o, os[i]? = some o → o ∉ os.take i := by
  rw [List.nodup_iff_getElem?_ne_getElem?]
  refine ⟨fun h i o hi hmem => ?_, fun h i j hij hj heq => ?_⟩
  · obtain ⟨j, hj, hjo⟩ := List.mem_take_iff_getElem.1 hmem
    have hlt : i < os.length := (List.getElem?_eq_some_iff.1 hi).1
    refine h j i (by omega) hlt ?_
    rw [hi, List.getElem?_eq_getElem (by omega), hjo]
  · rw [List.getElem?_eq_getElem hj] at heq
    refine h j os[j] (List.getElem?_eq_getElem hj) ?_
    obtain ⟨hi, hio⟩ := List.getElem?_eq_some_iff.1 heq
    exact List.mem_take_iff_getElem.2 ⟨i, by omega, hio⟩

/-- **Nothing is wrong with any position iff the objects are distinct and not too many.** -/
theorem forall_refusalAt?_eq_none_iff {os : List Object} :
    (∀ i, refusalAt? os i = none) ↔ os.Nodup ∧ os.length ≤ Var.maxId := by
  simp only [refusalAt?_eq_none_iff]
  rw [nodup_iff_not_mem_take]
  refine ⟨fun h => ⟨fun i o hi => (h i o hi).2, ?_⟩, ?_⟩
  · by_contra hlen
    have hlt : Var.maxId < os.length := Nat.not_le.1 hlen
    exact absurd (h Var.maxId _ (List.getElem?_eq_getElem hlt)).1 (Nat.lt_irrefl _)
  · rintro ⟨hnd, hlen⟩ i o hi
    exact ⟨Nat.lt_of_lt_of_le (List.getElem?_eq_some_iff.1 hi).1 hlen, hnd i o hi⟩

/-! ## One more object -/

theorem mem_objects_iff {r : Registry} {o : Object} (h : r.size ≤ Var.maxId) :
    o ∈ r.objects.toList ↔ ∃ v, r.varOf o = .ok v := by
  simp only [varOf_eq_ok_iff]
  rw [Array.mem_toList_iff, Array.mem_iff_getElem?]
  constructor
  · rintro ⟨i, hi⟩
    have hlt : i < r.size := (Array.getElem?_eq_some_iff.1 hi).1
    rcases hv : Var.ofIndex? i with _ | v
    · have := Var.ofIndex?_eq_none_iff.1 hv
      omega
    · exact ⟨v, by rw [Var.ofIndex?_eq_some_iff.1 hv]; exact hi⟩
  · rintro ⟨v, hv⟩
    exact ⟨v.index, hv⟩

theorem vars_eq_none_iff {r : Registry} {o : Object} (h : r.size ≤ Var.maxId) :
    r.vars[o]? = none ↔ o ∉ r.objects.toList := by
  rw [mem_objects_iff h, varOf]
  cases r.vars[o]? <;> simp

theorem extend_cons_of_overflow {required : Nat} {r : Registry} {o : Object} {os : List Object}
    (h : Var.maxId ≤ r.size) :
    extend required r (o :: os) = .error (.overflow required Var.maxId) := by
  rw [extend]
  split
  · rfl
  · next v hv =>
    have hlt := v.index_lt
    rw [Var.ofIndex?_eq_some_iff.1 hv] at hlt
    exact absurd h (Nat.not_le.2 hlt)

theorem extend_cons_of_mem {required : Nat} {r : Registry} {o : Object} {os : List Object}
    (h : r.size < Var.maxId) (ho : o ∈ r.objects.toList) :
    extend required r (o :: os) = .error (.duplicate o) := by
  rw [extend]
  split
  · next hv => exact absurd (Var.ofIndex?_eq_none_iff.1 hv) (Nat.not_le.2 h)
  · split
    · rfl
    · next fresh => exact absurd ho ((vars_eq_none_iff (Nat.le_of_lt h)).1 fresh)

/-- **A step of the walk**: an object that is new and has a variable left is taken up at the
end. -/
theorem extend_cons_of_not_mem (required : Nat) {r : Registry} {o : Object} (os : List Object)
    (h : r.size < Var.maxId) (ho : o ∉ r.objects.toList) :
    ∃ r' : Registry, extend required r (o :: os) = extend required r' os ∧
      r'.objects.toList ++ os = r.objects.toList ++ o :: os ∧ r'.size = r.size + 1 ∧
      r'.numFluents = r.numFluents := by
  rw [extend]
  split
  · next hv => exact absurd (Var.ofIndex?_eq_none_iff.1 hv) (Nat.not_le.2 h)
  · next v hv =>
    split
    · next fresh =>
      rw [(vars_eq_none_iff (Nat.le_of_lt h)).2 ho] at fresh
      cases fresh
    · next fresh =>
      refine ⟨_, rfl, ?_, Array.size_push .., rfl⟩
      rw [push, Array.toList_push, List.append_assoc, List.singleton_append]

/-! ## The whole walk

Both inductions are on the objects that are still to come.  The objects already numbered stay in
front of them in the statement, since a position may be at fault for what stands before it. -/

theorem refusalAt?_append_cons (done : List Object) (o : Object) (os : List Object) :
    refusalAt? (done ++ o :: os) done.length =
      if Var.maxId ≤ done.length then some (.overflow (done ++ o :: os).length Var.maxId)
      else if o ∈ done then some (.duplicate o)
      else none := by
  simp [refusalAt?]

/-- **The walk over a list with which nothing is wrong** takes up every object. -/
theorem extend_eq_ok {required : Nat} {os : List Object} : ∀ {r : Registry},
    (∀ i, refusalAt? (r.objects.toList ++ os) i = none) →
      ∃ r' : Registry, extend required r os = .ok r' ∧
        r'.objects.toList = r.objects.toList ++ os ∧ r'.numFluents = r.numFluents := by
  induction os with
  | nil => intro r _; exact ⟨r, rfl, (List.append_nil _).symm, rfl⟩
  | cons o os ih =>
    intro r h
    obtain ⟨hsize, hmem⟩ := refusalAt?_eq_none_iff.1 (h r.objects.toList.length) o (by simp)
    rw [List.take_left] at hmem
    obtain ⟨r₁, hstep, hall, -, hnum⟩ := extend_cons_of_not_mem required os hsize hmem
    obtain ⟨r', hr', hobj, hnum'⟩ := ih (r := r₁) (by rw [hall]; exact h)
    exact ⟨r', hstep.trans hr', hobj.trans hall, hnum'.trans hnum⟩

/-- **The walk ends at the first position with which something is wrong**, and says what it is. -/
theorem extend_eq_error {os : List Object} : ∀ {r : Registry} {i : Nat} {fault : PlanFault},
    r.size ≤ i → refusalAt? (r.objects.toList ++ os) i = some fault →
      (∀ j < i, refusalAt? (r.objects.toList ++ os) j = none) →
        extend (r.objects.toList ++ os).length r os = .error fault := by
  induction os with
  | nil =>
    intro r i fault hi hbad _
    have hlen : (r.objects.toList ++ []).length ≤ i := by simpa [size] using hi
    rw [refusalAt?, List.getElem?_eq_none hlen] at hbad
    cases hbad
  | cons o os ih =>
    intro r i fault hi hbad hfirst
    rcases Nat.eq_or_lt_of_le hi with rfl | hlt
    · have hat := refusalAt?_append_cons r.objects.toList o os
      rw [show r.objects.toList.length = r.size from rfl, hbad] at hat
      split at hat
      · next hmax => cases hat; exact extend_cons_of_overflow hmax
      · next hmax =>
        split at hat
        · next hmem => cases hat; exact extend_cons_of_mem (Nat.not_le.1 hmax) hmem
        · cases hat
    · obtain ⟨hsize, hmem⟩ := refusalAt?_eq_none_iff.1 (hfirst r.size hlt) o (by simp [size])
      rw [size, ← Array.length_toList, List.take_left] at hmem
      obtain ⟨r₁, hstep, hall, hsize₁, -⟩ :=
        extend_cons_of_not_mem (r.objects.toList ++ o :: os).length os hsize hmem
      have hle : r₁.size ≤ i := by omega
      have hrest := ih hle (by rw [hall]; exact hbad) (by rw [hall]; exact hfirst)
      rw [hall] at hrest
      exact hstep.trans hrest

/-! ## Numbering the fluents, then the actions -/

theorem length_arrange (objects : List Object) : (arrange objects).length = objects.length := by
  have h : objects.filter Object.isAction = objects.filter fun o => !o.isFluent :=
    List.filter_congr fun o _ => by cases o <;> rfl
  rw [arrange, h, List.length_append, ← List.length_eq_length_filter_add]

theorem register_eq_ok {objects : List Object} (h : ∀ i, refusalAt? (arrange objects) i = none) :
    ∃ r : Registry, register objects = .ok r ∧ r.objects.toList = arrange objects ∧
      r.numFluents = (objects.filter Object.isFluent).length :=
  extend_eq_ok (r := blank (objects.filter Object.isFluent).length) h

theorem register_eq_error {objects : List Object} {i : Nat} {fault : PlanFault}
    (h : refusalAt? (arrange objects) i = some fault)
    (first : ∀ j < i, refusalAt? (arrange objects) j = none) :
    register objects = .error fault := by
  rw [register, ← length_arrange]
  exact extend_eq_error (r := blank (objects.filter Object.isFluent).length) (Nat.zero_le i) h first

/-- A list of objects is numbered from one end to the other, or some position is the first with
which something is wrong. -/
theorem refusalAt?_none_or_first (os : List Object) :
    (∀ i, refusalAt? os i = none) ∨
      ∃ i fault, refusalAt? os i = some fault ∧ ∀ j < i, refusalAt? os j = none := by
  by_cases h : ∃ i, refusalAt? os i ≠ none
  · right
    obtain ⟨fault, hfault⟩ := Option.ne_none_iff_exists'.1 (Nat.find_spec h)
    exact ⟨Nat.find h, fault, hfault, fun j hj => not_not.1 (Nat.find_min h hj)⟩
  · left
    exact fun i => not_not.1 fun hi => h ⟨i, hi⟩

theorem register_eq_ok_iff {objects : List Object} :
    (∃ r, register objects = .ok r) ↔ ∀ i, refusalAt? (arrange objects) i = none := by
  refine ⟨?_, fun h => ?_⟩
  · rintro ⟨r, hr⟩
    rcases refusalAt?_none_or_first (arrange objects) with h | ⟨i, fault, hi, first⟩
    · exact h
    · rw [register_eq_error hi first] at hr
      cases hr
  · obtain ⟨r, hr, -⟩ := register_eq_ok h
    exact ⟨r, hr⟩

theorem register_eq_error_iff {objects : List Object} {fault : PlanFault} :
    register objects = .error fault ↔ ∃ i, refusalAt? (arrange objects) i = some fault ∧
      ∀ j < i, refusalAt? (arrange objects) j = none := by
  refine ⟨fun hr => ?_, ?_⟩
  · rcases refusalAt?_none_or_first (arrange objects) with h | ⟨i, fault', hi, first⟩
    · obtain ⟨r, hok, -⟩ := register_eq_ok h
      rw [hok] at hr
      cases hr
    · rw [register_eq_error hi first] at hr
      cases hr
      exact ⟨i, hi, first⟩
  · rintro ⟨i, hi, first⟩
    exact register_eq_error hi first

theorem objects_of_register {objects : List Object} {r : Registry}
    (h : register objects = .ok r) : r.objects.toList = arrange objects ∧
      r.numFluents = (objects.filter Object.isFluent).length ∧ r.size ≤ Var.maxId := by
  have hall := register_eq_ok_iff.1 ⟨r, h⟩
  obtain ⟨r', hr', hobj, hnum⟩ := register_eq_ok hall
  rw [h] at hr'
  cases hr'
  refine ⟨hobj, hnum, ?_⟩
  have hlen := (forall_refusalAt?_eq_none_iff.1 hall).2
  rw [← hobj] at hlen
  exact hlen

/-! ## What a numbering is -/

/-- The registry `r` numbers the objects `os`, which has its fluents in front. -/
structure Numbers (r : Registry) (os : List Object) : Prop where
  /-- Reading a variable off an object and an object off a variable are inverse. -/
  varOf_iff : ∀ (o : Object) (v : Var), r.varOf o = .ok v ↔ r.objectAt v.id = .ok o
  /-- Exactly the objects that are not numbered have no variable. -/
  varOf_error_iff : ∀ (o : Object) (fault : PlanFault),
    r.varOf o = .error fault ↔ o ∉ os ∧ fault = .unregistered o
  /-- The objects are numbered from one, in their order. -/
  objectAt_iff : ∀ (i : Int) (o : Object),
    r.objectAt i = .ok o ↔ 1 ≤ i ∧ os[(i - 1).toNat]? = some o
  /-- Exactly the numbers below one and beyond the last have no object. -/
  objectAt_error_iff : ∀ (i : Int) (fault : PlanFault),
    r.objectAt i = .error fault ↔ ¬ (1 ≤ i ∧ i ≤ os.length) ∧ fault = .outOfRange i os.length
  /-- The variables of the fluents are the first ones. -/
  fluent_le : ∀ (f : FluentId) (v : Var), r.fluentVar f = .ok v → v.id ≤ r.numFluents
  /-- The variables of the actions come after them. -/
  lt_action : ∀ (a : ActionId) (v : Var), r.actionVar a = .ok v → r.numFluents < v.id
  /-- The listing has every variable with its object, in order. -/
  toList_eq : r.toList.map (fun q => (q.1.id, q.2)) = os.zipIdx.map fun q => (q.2 + 1, q.1)
  size_eq : r.size = os.length
  numFluents_eq : r.numFluents = (os.filter Object.isFluent).length
  size_eq_add : r.size = r.numFluents + r.numActions

theorem filter_isFluent_arrange (objects : List Object) :
    (arrange objects).filter Object.isFluent = objects.filter Object.isFluent := by
  have h : (objects.filter Object.isAction).filter Object.isFluent = [] := by
    refine List.filter_eq_nil_iff.2 fun o ho => ?_
    have hact := (List.mem_filter.1 ho).2
    cases o with
    | fluent f => cases hact
    | action a => exact Bool.false_ne_true
  rw [arrange, List.filter_append, List.filter_filter, h, List.append_nil]
  simp

/-- In the arranged order, a position holds a fluent iff it is among the first so many. -/
theorem isFluent_iff_lt {objects : List Object} {i : Nat} {o : Object}
    (h : (arrange objects)[i]? = some o) :
    o.isFluent = true ↔ i < (objects.filter Object.isFluent).length := by
  rw [arrange] at h
  by_cases hi : i < (objects.filter Object.isFluent).length
  · rw [List.getElem?_append_left hi] at h
    exact iff_of_true (List.mem_filter.1 (List.mem_of_getElem? h)).2 hi
  · rw [List.getElem?_append_right (Nat.not_lt.1 hi)] at h
    refine iff_of_false ?_ hi
    have hact := (List.mem_filter.1 (List.mem_of_getElem? h)).2
    cases o with
    | fluent f => cases hact
    | action a => exact Bool.false_ne_true

/-- No position is lost in the listing, since each has its variable. -/
theorem toList_map {r : Registry} (h : r.size ≤ Var.maxId) :
    r.toList.map (fun q => (q.1.id, q.2)) = r.objects.toList.zipIdx.map fun q => (q.2 + 1, q.1) :=
  Var.map_filterMap_zipIdx (f := Prod.mk) h fun v o => by rw [v.id_eq_index_succ]

/-- **What `register` returns is a numbering of the objects in their arranged order.** -/
theorem numbers_of_register {objects : List Object} {r : Registry}
    (h : register objects = .ok r) : r.Numbers (arrange objects) := by
  obtain ⟨hobj, hnum, hmax⟩ := objects_of_register h
  have hget : ∀ i : Nat, r.objects[i]? = (arrange objects)[i]? := fun i => by
    rw [← hobj, Array.getElem?_toList]
  have hsize : r.size = (arrange objects).length := by rw [← hobj, Array.length_toList, size]
  have hsplit : ∀ {o : Object} {v : Var}, r.varOf o = .ok v →
      (o.isFluent = true ↔ v.id ≤ r.numFluents) := fun {o v} hv => by
    rw [varOf_eq_ok_iff, hget] at hv
    rw [isFluent_iff_lt hv, hnum, v.id_eq_index_succ, Nat.succ_le_iff]
  exact
    { varOf_iff := fun o v => varOf_eq_ok_iff_objectOf
      varOf_error_iff := fun o fault => by
        rw [varOf_eq_error_iff, ← hobj, mem_objects_iff hmax, not_exists]
      objectAt_iff := fun i o => by rw [objectAt_eq_ok_iff, hget]; rfl
      objectAt_error_iff := fun i fault => by rw [objectAt_eq_error_iff, hsize]; rfl
      fluent_le := fun f v hv => (hsplit hv).1 rfl
      lt_action := fun a v hv => Nat.not_le.1 fun hle => Bool.false_ne_true ((hsplit hv).2 hle)
      toList_eq := by rw [toList_map hmax, hobj]
      size_eq := hsize
      numFluents_eq := by rw [hnum, filter_isFluent_arrange]
      size_eq_add := by
        have hle : r.numFluents ≤ r.size := by
          rw [hnum, hsize, length_arrange]
          exact List.length_filter_le ..
        rw [numActions]
        omega }

end Registry

/-! ## The objects of a problem

The fluents and actions of a problem are listed by number, so no two of them are the same as long
as there are numbers for all.  Only want of variables is left to go wrong. -/

namespace Problem

/-- The fluents of the problem, then its actions, each in order of declaration. -/
def objects (p : Problem) : List Object :=
  p.fluentIds.map .fluent ++ p.actionIds.map .action

theorem length_objects (p : Problem) : p.objects.length = p.numFluents + p.numActions := by
  simp [objects, fluentIds, actionIds]

theorem getElem?_objects_of_lt {p : Problem} {i : Nat} (h : i < p.numFluents) :
    p.objects[i]? = some (.fluent (.ofNat i)) := by
  rw [objects, List.getElem?_append_left (by simpa [fluentIds] using h)]
  simp [fluentIds, h]

theorem getElem?_objects_add {p : Problem} {j : Nat} (h : j < p.numActions) :
    p.objects[p.numFluents + j]? = some (.action (.ofNat j)) := by
  rw [objects, List.getElem?_append_right (by simp [fluentIds])]
  simp [fluentIds, actionIds, h]

theorem filter_isFluent_objects (p : Problem) :
    p.objects.filter Object.isFluent = p.fluentIds.map .fluent := by
  simp [objects, List.filter_map, Function.comp_def, Object.isFluent]

theorem arrange_objects (p : Problem) : Registry.arrange p.objects = p.objects := by
  simp [Registry.arrange, objects, List.filter_map, Function.comp_def, Object.isFluent,
    Object.isAction]

/-- Where an object stands among the objects of the problem. -/
def position (p : Problem) : Object → Nat
  | .fluent f => f.toNat
  | .action a => p.numFluents + a.toNat

/-- An object tells where it stands, as long as its number is not cut down to 32 bits. -/
theorem eq_position {p : Problem} {i : Nat} {o : Object} (hi : i < UInt32.size)
    (h : p.objects[i]? = some o) : i = p.position o := by
  by_cases hlt : i < p.numFluents
  · rw [getElem?_objects_of_lt hlt] at h
    cases h
    exact (FluentId.toNat_ofNat hi).symm
  · obtain ⟨j, rfl⟩ := Nat.exists_eq_add_of_le (Nat.not_lt.1 hlt)
    have hlen := (List.getElem?_eq_some_iff.1 h).1
    rw [length_objects] at hlen
    rw [getElem?_objects_add (by omega)] at h
    cases h
    rw [position, ActionId.toNat_ofNat (by omega)]

/-- **The objects are listed by position**, as long as there are enough variables for them. -/
theorem pairwise_position {p : Problem} (h : p.numFluents + p.numActions ≤ Var.maxId) :
    p.objects.Pairwise fun o o' => p.position o < p.position o' := by
  rw [List.pairwise_iff_getElem]
  intro i j hi hj hij
  have hlen := p.length_objects
  have hsize : Var.maxId < UInt32.size := by decide
  rw [← eq_position (by omega) (List.getElem?_eq_getElem hi),
    ← eq_position (by omega) (List.getElem?_eq_getElem hj)]
  exact hij

theorem nodup_objects {p : Problem} (h : p.numFluents + p.numActions ≤ Var.maxId) :
    p.objects.Nodup := by
  refine (pairwise_position h).imp fun {o o'} hlt heq => ?_
  rw [heq] at hlt
  exact Nat.lt_irrefl _ hlt

end Problem

namespace Registry

/-- **A problem is numbered iff its fluents and actions are not too many for the variables.** -/
theorem ofProblem_eq_ok_iff {p : Problem} :
    (∃ r, ofProblem p = .ok r) ↔ p.numFluents + p.numActions ≤ Var.maxId := by
  rw [ofProblem, ← Problem.objects, register_eq_ok_iff, p.arrange_objects,
    forall_refusalAt?_eq_none_iff, p.length_objects]
  exact and_iff_right_of_imp Problem.nodup_objects

theorem objects_of_ofProblem {p : Problem} {r : Registry} (h : ofProblem p = .ok r) :
    r.objects.toList = p.objects ∧ r.numFluents = p.numFluents := by
  obtain ⟨hobj, hnum, -⟩ := objects_of_register h
  rw [← Problem.objects] at hobj hnum
  rw [p.filter_isFluent_objects] at hnum
  exact ⟨hobj.trans p.arrange_objects, hnum.trans (by simp [Problem.fluentIds])⟩

theorem size_of_ofProblem {p : Problem} {r : Registry} (h : ofProblem p = .ok r) :
    r.size = p.numFluents + p.numActions := by
  rw [← p.length_objects, ← (objects_of_ofProblem h).1, Array.length_toList, size]

/-- The object in a position of the problem has the variable of that position. -/
theorem exists_varOf_of_ofProblem {p : Problem} {r : Registry} (h : ofProblem p = .ok r) {i : Nat}
    {o : Object} (ho : p.objects[i]? = some o) : ∃ v, r.varOf o = .ok v ∧ v.id = i + 1 := by
  rw [← (objects_of_ofProblem h).1, Array.getElem?_toList] at ho
  have hlt : i < r.size := (Array.getElem?_eq_some_iff.1 ho).1
  have hmax := ofProblem_eq_ok_iff.1 ⟨r, h⟩
  rw [← size_of_ofProblem h] at hmax
  rcases hv : Var.ofIndex? i with _ | v
  · have := Var.ofIndex?_eq_none_iff.1 hv
    omega
  · have hi := Var.ofIndex?_eq_some_iff.1 hv
    exact ⟨v, varOf_eq_ok_iff.2 (by rw [hi]; exact ho), by rw [v.id_eq_index_succ, hi]⟩

/-! ## In one statement -/

/-- **Numbering is exact.**  Distinct objects that are not too many are numbered without gaps, the
fluents first; any other list is refused at the first position of the arranged order with which
something is wrong.  The fluents of a problem have the variables from one on, and its actions
those after. -/
theorem register_numbers :
    (∀ objects : List Object,
      ((∃ r, register objects = .ok r) ↔
        (arrange objects).Nodup ∧ (arrange objects).length ≤ Var.maxId) ∧
      (∀ fault, register objects = .error fault ↔
        ∃ i, refusalAt? (arrange objects) i = some fault ∧
          ∀ j < i, refusalAt? (arrange objects) j = none) ∧
      ∀ r, register objects = .ok r → r.Numbers (arrange objects)) ∧
    ∀ p : Problem,
      ((∃ r, ofProblem p = .ok r) ↔ p.numFluents + p.numActions ≤ Var.maxId) ∧
      ∀ r, ofProblem p = .ok r →
        (∀ i < p.numFluents, ∃ v, r.fluentVar (.ofNat i) = .ok v ∧ v.id = i + 1) ∧
        ∀ j < p.numActions, ∃ v, r.actionVar (.ofNat j) = .ok v ∧ v.id = p.numFluents + j + 1 := by
  refine ⟨fun objects => ⟨?_, fun fault => register_eq_error_iff, fun r => numbers_of_register⟩,
    fun p => ⟨ofProblem_eq_ok_iff, fun r hr => ⟨fun i hi => ?_, fun j hj => ?_⟩⟩⟩
  · rw [register_eq_ok_iff, forall_refusalAt?_eq_none_iff]
  · exact exists_varOf_of_ofProblem hr (Problem.getElem?_objects_of_lt hi)
  · exact exists_varOf_of_ofProblem hr (Problem.getElem?_objects_add hj)

/-- The action is supplied first and numbered last, and a fluent's own number does not matter. -/
theorem register_numbers_pair : ∃ r, register [.action (.ofNat 0), .fluent (.ofNat 5)] = .ok r ∧
    r.objectAt 1 = .ok (.fluent (.ofNat 5)) ∧ r.objectAt 2 = .ok (.action (.ofNat 0)) ∧
    ∀ f, r.fluentVar (.ofNat 0) ≠ .ok f := by
  obtain ⟨r, hr⟩ := (register_numbers.1 [.action (.ofNat 0), .fluent (.ofNat 5)]).1.2 (by decide)
  have hnum := (register_numbers.1 _).2.2 r hr
  refine ⟨r, hr, (hnum.objectAt_iff 1 _).2 (by decide), (hnum.objectAt_iff 2 _).2 (by decide), ?_⟩
  have hnone := (hnum.varOf_error_iff (.fluent (.ofNat 0)) _).2 ⟨by decide, rfl⟩
  intro v hv
  rw [fluentVar, hnone] at hv
  cases hv

/-- Both an action and a fluent are listed twice here, and the fluent is reported although it comes
later: the fluents are numbered first. -/
example : refusalAt? (arrange [.action (.ofNat 0), .action (.ofNat 0), .fluent (.ofNat 1),
    .fluent (.ofNat 1)]) 1 = some (.duplicate (.fluent (.ofNat 1))) := by
  decide

end Registry
end SnapshotPlan
