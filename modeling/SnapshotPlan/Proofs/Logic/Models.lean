import Mathlib.Data.List.Basic
import SnapshotPlan.Logic.Model

/-!
# Models made from values

A list of values, one for each of the variables `1, 2, …`, is a model; what is listed beyond the
last variable there is does not count.

## What is here

* `Var.map_filterMap_zipIdx` — going through a list by the variables of its positions skips nothing.
* `getElem?_ofValues_iff` — **a model made from values has each value in its place**, and so it is
  complete and ordered.
* `meets_of_satisfies` — a complete model lists a literal of every clause that its assignment
  satisfies.
-/

set_option autoImplicit false

namespace SnapshotPlan

/-- No position of a list is skipped for want of a variable, unless the list is too long. -/
theorem Var.map_filterMap_zipIdx {α β γ : Type} {xs : List α} (h : xs.length ≤ maxId)
    {f : Var → α → β} {g : β → γ} {k : α × Nat → γ} (hk : ∀ v x, g (f v x) = k (x, v.index)) :
    (xs.zipIdx.filterMap fun q => (ofIndex? q.2).map fun v => f v q.1).map g = xs.zipIdx.map k := by
  rw [List.map_filterMap, ← List.filterMap_eq_map']
  refine List.filterMap_congr fun q hq => ?_
  have hlt : q.2 < xs.length := List.snd_lt_of_mem_zipIdx hq
  rcases hv : ofIndex? q.2 with _ | v
  · have := ofIndex?_eq_none_iff.1 hv
    omega
  · rw [Option.map_some, Option.map_some, hk, ofIndex?_eq_some_iff.1 hv]

namespace Model

variable {values : List Bool}

/-- Values beyond the last variable make no difference. -/
theorem ofValues_take : ofValues (values.take Var.maxId) = ofValues values := by
  rcases Nat.le_total values.length Var.maxId with h | h
  · rw [List.take_of_length_le h]
  · have hrest : ∀ q ∈ (values.drop Var.maxId).zipIdx Var.maxId,
        ((Var.ofIndex? q.2).map fun v => Lit.mk v q.1) = none := fun q hq => by
      rw [Var.ofIndex?_eq_none_iff.2 (List.le_snd_of_mem_zipIdx hq), Option.map_none]
    have hsplit : values.zipIdx = (values.take Var.maxId).zipIdx ++
        (values.drop Var.maxId).zipIdx Var.maxId := by
      conv_lhs => rw [← List.take_append_drop Var.maxId values]
      rw [List.zipIdx_append, List.length_take_of_le h, Nat.zero_add]
    rw [ofValues, ofValues, hsplit, List.filterMap_append, List.filterMap_eq_nil_iff.2 hrest,
      List.append_nil]

theorem map_lits_ofValues :
    (ofValues values).lits.map (fun l => (l.positive, l.var.index)) =
      (values.take Var.maxId).zipIdx := by
  have hmap := Var.map_filterMap_zipIdx (f := Lit.mk) (g := fun l => (l.positive, l.var.index))
    (k := id) (List.length_take_le Var.maxId values) fun _ _ => rfl
  rw [List.map_id] at hmap
  rw [← ofValues_take]
  exact hmap

/-- **Each value stands in its place**, on the variable of that place. -/
theorem getElem?_ofValues_iff {i : Nat} {l : Lit} :
    (ofValues values).lits[i]? = some l ↔ l.var.index = i ∧ values[i]? = some l.positive := by
  have hmap : ((ofValues values).lits[i]?).map (fun l => (l.positive, l.var.index)) =
      (values.take Var.maxId)[i]?.map fun b => (b, i) := by
    rw [← List.getElem?_map, map_lits_ofValues, List.getElem?_zipIdx, Nat.zero_add]
  have htake : (values.take Var.maxId)[l.var.index]? = values[l.var.index]? :=
    List.getElem?_take_of_lt l.var.index_lt
  constructor
  · intro hl
    rw [hl] at hmap
    obtain ⟨b, hb, hbi⟩ := Option.map_eq_some_iff.1 hmap.symm
    obtain ⟨rfl, rfl⟩ := Prod.mk.inj hbi
    exact ⟨rfl, htake.symm.trans hb⟩
  · rintro ⟨rfl, hb⟩
    rw [htake, hb] at hmap
    obtain ⟨k, hk, hkl⟩ := Option.map_eq_some_iff.1 hmap
    obtain ⟨hsign, hvar⟩ := Prod.mk.inj hkl
    rw [hk, Lit.ext (Var.index_inj.1 hvar) hsign]

theorem length_ofValues : (ofValues values).lits.length = min values.length Var.maxId := by
  have hlen := congrArg List.length (@map_lits_ofValues values)
  rw [List.length_map, List.length_zipIdx, List.length_take] at hlen
  rw [hlen, Nat.min_comm]

theorem ordered_ofValues : (ofValues values).ordered = true :=
  ordered_iff.2 fun _ _ hl => (getElem?_ofValues_iff.1 hl).1

/-- The assignment of a model made from values gives each variable the value in its place. -/
theorem assignment_ofValues {v : Var} {b : Bool} (hb : values[v.index]? = some b) :
    (ofValues values).assignment v = b := by
  have hl := (getElem?_ofValues_iff (l := ⟨v, b⟩)).2 ⟨rfl, hb⟩
  exact holds_assignment ordered_ofValues (List.mem_of_getElem? hl)

/-- **In a complete model, the literals that hold are listed**, so satisfying clauses and listing a
literal of each come to the same. -/
theorem meets_of_satisfies {m : Model} (h : m.ordered = true) {cs : List Clause}
    (inside : ∀ c ∈ cs, ∀ l ∈ c.lits, l.var.id ≤ m.lits.length)
    (hcs : Satisfies m.assignment cs) : m.meets cs = true := by
  refine meets_iff.2 fun c hc => ?_
  obtain ⟨l, hl, hholds⟩ := hcs c hc
  have hlt : l.var.index < m.lits.length := by
    have hle := inside c hc l hl
    rw [l.var.id_eq_index_succ] at hle
    exact hle
  have hk : m.lits[l.var.index]? = some m.lits[l.var.index] := List.getElem?_eq_getElem hlt
  have hmem : m.lits[l.var.index] ∈ m.lits := List.getElem_mem hlt
  -- The literal in the variable's place is about the variable, and it holds as well.
  have hvar : m.lits[l.var.index].var = l.var := Var.index_inj.1 (ordered_iff.1 h _ _ hk)
  have hsign : m.lits[l.var.index].positive = l.positive := by
    rw [← holds_assignment h hmem, hvar]
    exact hholds
  refine ⟨l, hl, ?_⟩
  rw [Lit.ext hvar hsign] at hmem
  exact hmem

end Model
end SnapshotPlan
