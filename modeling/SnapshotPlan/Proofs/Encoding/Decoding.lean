import SnapshotPlan.Encoding.Decoding
import SnapshotPlan.Logic.Model
import SnapshotPlan.Proofs.Encoding.Meaning

/-!
# Reading a complete model back

A model with one literal for each variable, in order, says of every object of a registry whether it
is true.  Decoding it loses nothing and shifts nothing: what is read off is what the model's
assignment says, object by object.

## What is here

* `Registry.valuation` — the values of all objects under an assignment, in the order of the
  registry.
* `decode_lits` — **a complete model decodes to the valuation of its assignment.**
* `decode_eq_ok_iff`, `first_of_decode_eq_error` — what is read off any literals, and the first one
  that has no object.
* `Valuation.facts` — the fluents that come out true.
* `Plan.mem_ofValuation_iff` — the actions of a plan are those that come out true.
-/

set_option autoImplicit false

namespace SnapshotPlan

/-! ## Complete models -/

/-- In an ordered model, the assignment gives a variable the sign of the literal in its place. -/
theorem Model.assignment_var_of_getElem? {m : Model} (h : m.ordered = true) {i : Nat} {l : Lit}
    (hl : m.lits[i]? = some l) : m.assignment l.var = l.positive :=
  Model.holds_assignment h (List.mem_of_getElem? hl)

namespace Registry

variable {r : Registry}

/-- The values of all objects under an assignment, in the order of the registry. -/
def valuation (r : Registry) (σ : Assignment) : Valuation :=
  r.objects.toList.map fun o => (o, r.read σ o)

theorem map_fst_valuation (σ : Assignment) : (r.valuation σ).map Prod.fst = r.objects.toList := by
  rw [valuation, List.map_map]
  exact List.map_id _

/-- The objects that come out true are those that the assignment makes true. -/
theorem mem_valuation_iff {σ : Assignment} {o : Object} :
    (o, true) ∈ r.valuation σ ↔ r.read σ o = true := by
  rw [valuation, List.mem_map]
  constructor
  · rintro ⟨o', -, h⟩
    obtain ⟨rfl, hread⟩ := Prod.mk.inj h
    exact hread
  · intro h
    obtain ⟨v, hv, -⟩ := read_eq_true_iff.1 h
    have hmem : o ∈ r.objects.toList :=
      Array.mem_toList_iff.2 (Array.mem_of_getElem? (varOf_eq_ok_iff.1 hv))
    exact ⟨o, hmem, by rw [h]⟩

/-- **A complete model decodes to the valuation of its assignment.** -/
theorem decode_lits {m : Model} (hord : m.ordered = true) (hlen : m.lits.length = r.size) :
    r.decode m.lits = .ok (r.valuation m.assignment) := by
  rw [decode, mapM_eq_ok_iff, List.forall₂_iff_get]
  have hlen' : r.objects.toList.length = m.lits.length := by rw [hlen, size, Array.length_toList]
  refine ⟨by rw [valuation, List.length_map, hlen'], fun i hi hi' => ?_⟩
  have hobj : i < r.objects.size := by rw [← Array.length_toList, hlen']; exact hi
  have hl : m.lits[i]? = some m.lits[i] := List.getElem?_eq_getElem hi
  -- The literal in place `i` is about the variable of the object in place `i`.
  have hvar : r.objects[m.lits[i].var.index]? = some r.objects[i] := by
    rw [Model.ordered_iff.1 hord i _ hl]
    exact Array.getElem?_eq_getElem hobj
  have hread : r.read m.assignment r.objects[i] = m.lits[i].positive := by
    rw [read_of_varOf (varOf_eq_ok_iff.2 hvar), Model.assignment_var_of_getElem? hord hl]
  show (r.objectOf m.lits[i].var).map _ = .ok (r.valuation m.assignment)[i]
  rw [objectOf_eq_ok_iff.2 hvar]
  simp only [valuation, List.getElem_map, Array.getElem_toList, hread]
  rfl

/-- **What is read off literals** are the objects with their numbers, with the literals' signs. -/
theorem decode_eq_ok_iff {lits : List Lit} {v : Valuation} : r.decode lits = .ok v ↔
    List.Forall₂ (fun l q => r.objects[l.var.index]? = some q.1 ∧ l.positive = q.2) lits v := by
  have hone : ∀ (l : Lit) (q : Object × Bool),
      ((r.objectOf l.var).map fun o => (o, l.positive)) = .ok q ↔
        r.objects[l.var.index]? = some q.1 ∧ l.positive = q.2 := by
    rintro l ⟨o, b⟩
    rw [← objectOf_eq_ok_iff]
    cases r.objectOf l.var <;> simp [Except.map]
  rw [decode, mapM_eq_ok_iff]
  simp only [hone]

/-- **Decoding fails at the first literal whose variable has no object.** -/
theorem first_of_decode_eq_error {lits : List Lit} {fault : PlanFault}
    (h : r.decode lits = .error fault) : ∃ before l after, lits = before ++ l :: after ∧
      (∀ k ∈ before, k.var.id ≤ r.size) ∧ r.size < l.var.id ∧
        fault = .outOfRange l.var.id r.size := by
  obtain ⟨before, l, after, hlits, hbefore, hl⟩ := mapM_eq_error_iff.1 h
  refine ⟨before, l, after, hlits, fun k hk => ?_, ?_⟩
  · obtain ⟨q, hq⟩ := hbefore k hk
    rcases hobj : r.objectOf k.var with fault' | o
    · rw [hobj] at hq
      cases hq
    · exact id_le_of_varOf (varOf_eq_ok_iff_objectOf.2 hobj)
  · rcases hobj : r.objectOf l.var with fault' | o
    · rw [hobj] at hl
      cases hl
      obtain ⟨hout, rfl⟩ := objectAt_eq_error_iff.1 hobj
      have hpos := l.var.id_pos
      exact ⟨by omega, rfl⟩
    · rw [hobj] at hl
      cases hl

/-- Decoding can only fail at a literal whose variable has no object. -/
theorem exists_of_decode_eq_error {lits : List Lit} {fault : PlanFault}
    (h : r.decode lits = .error fault) : ∃ i, fault = .outOfRange i r.size := by
  obtain ⟨_, l, _, -, -, -, hfault⟩ := first_of_decode_eq_error h
  exact ⟨l.var.id, hfault⟩

end Registry

/-! ## The fluents and the actions that come out true

To be true in a valuation is to be listed there with the value true.  Facts and plans are made by
filtering the list for that, one for fluents and the other for actions. -/

namespace Valuation

/-- The fluent of a true fluent object. -/
def fact? : Object × Bool → Option FluentId
  | (.fluent f, true) => some f
  | _ => none

theorem fact?_eq_some_iff {q : Object × Bool} {f : FluentId} :
    fact? q = some f ↔ q = (.fluent f, true) := by
  rcases q with ⟨_ | _, _ | _⟩ <;> simp [fact?]

/-- The fluents that come out true. -/
def facts (v : Valuation) : FluentSet := .ofList (v.filterMap fact?)

theorem mem_facts_iff {v : Valuation} {f : FluentId} : f ∈ v.facts ↔ (.fluent f, true) ∈ v := by
  rw [facts, FluentSet.mem_ofList, List.mem_filterMap]
  simp only [fact?_eq_some_iff, exists_eq_right]

end Valuation

namespace Plan

theorem chosen?_eq_some_iff {q : Object × Bool} {a : ActionId} :
    chosen? q = some a ↔ q = (.action a, true) := by
  rcases q with ⟨_ | _, _ | _⟩ <;> simp [chosen?]

/-- **A plan has the actions that come out true, and no others.** -/
theorem mem_ofValuation_iff {v : Valuation} {a : ActionId} :
    a ∈ (ofValuation v).actions ↔ (.action a, true) ∈ v := by
  rw [ofValuation, List.mem_filterMap]
  simp only [chosen?_eq_some_iff, exists_eq_right]

/-- The actions of a plan stand in the order of their objects in the valuation. -/
theorem pairwise_ofValuation {v : Valuation} {R : ActionId → ActionId → Prop}
    (h : (v.map Prod.fst).Pairwise fun o o' => ∀ a b, o = .action a → o' = .action b → R a b) :
    (ofValuation v).actions.Pairwise R := by
  rw [ofValuation, List.pairwise_filterMap]
  rw [List.pairwise_map] at h
  refine h.imp fun {q q'} hq a ha b hb => ?_
  rw [chosen?_eq_some_iff] at ha hb
  exact hq a b (congrArg Prod.fst ha) (congrArg Prod.fst hb)

end Plan
end SnapshotPlan
