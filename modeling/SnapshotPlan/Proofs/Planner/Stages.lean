import SnapshotPlan.Planner.Solve
import SnapshotPlan.Proofs.Encoding.Decoding
import SnapshotPlan.Proofs.Oracle.Contract

/-!
# Solving, stage by stage

`solve` numbers the objects of a problem, encodes its actions, looks whether the goal holds before
any action, and only then consults the oracle.

## What is here

* `encodeProblem_eq_ok_iff` — what the first two stages leave behind.
* `exists_encodeProblem_iff` — **a problem is encoded iff its fluents and actions are not too
  many**: everything that its actions mention is declared.
* `map_toInts_of_encodeProblem` — **the clauses of a problem, in integers.**
* `ofVerdict_satisfiable_cases` — what becomes of a model.
* `run_solve`, `solve_cases` — the ways in which `solve` comes to an end.
-/

set_option autoImplicit false

namespace SnapshotPlan

variable {p : Problem} {config : Config}

/-! ## Numbering and encoding -/

theorem encodeProblem_eq_ok_iff {r : Registry} {cs : List Clause} :
    encodeProblem p config = .ok (r, cs) ↔ Registry.ofProblem p = .ok r ∧
      ∃ e, encode config.maxVariables.toNat p.actions.toList r = .ok e ∧ e.clauses = cs := by
  rw [encodeProblem]
  rcases Registry.ofProblem p with fault | r'
  · exact iff_of_false (fun h => nomatch h) fun h => nomatch h.1
  · show (encode _ _ r' >>= fun e => pure (r', e.clauses)) = _ ↔ _
    refine ⟨fun h => ?_, ?_⟩
    · rcases he : encode config.maxVariables.toNat p.actions.toList r' with fault | e
      · rw [he] at h
        cases h
      · rw [he] at h
        cases h
        exact ⟨rfl, e, he, rfl⟩
    · rintro ⟨hr, e, he, rfl⟩
      cases hr
      rw [he]
      rfl

/-- **Everything that an action mentions is numbered**, since it is declared. -/
theorem knowsAll_of_ofProblem {r : Registry} (h : Registry.ofProblem p = .ok r) :
    r.KnowsAll 0 p.actions.toList := by
  have hknows : ∀ (i : Nat) (o : Object), p.objects[i]? = some o → r.Knows o := fun i o ho => by
    obtain ⟨v, hv, -⟩ := Registry.exists_varOf_of_ofProblem h ho
    exact ⟨v, hv⟩
  refine Registry.knowsAll_iff.2 fun j a ha => ?_
  have hj : j < p.numActions := (List.getElem?_eq_some_iff.1 ha).1
  refine ⟨hknows _ _ (Problem.getElem?_objects_add hj), fun f hf => ?_⟩
  have hmem : a ∈ p.actions := Array.mem_toList_iff.1 (List.mem_of_getElem? ha)
  have hlt : f.toNat < p.numFluents := p.actions_declared a hmem f hf
  have hobj := Problem.getElem?_objects_of_lt hlt
  rw [FluentId.ofNat_toNat] at hobj
  exact hknows _ _ hobj

theorem exists_encodeProblem_iff :
    (∃ r cs, encodeProblem p config = .ok (r, cs)) ↔
      p.numFluents + p.numActions ≤ Var.maxId ∧
        p.numFluents + p.numActions ≤ config.maxVariables.toNat := by
  rw [← Registry.ofProblem_eq_ok_iff]
  constructor
  · rintro ⟨r, cs, h⟩
    obtain ⟨hr, e, he, -⟩ := encodeProblem_eq_ok_iff.1 h
    rw [← Registry.size_of_ofProblem hr]
    exact ⟨⟨r, hr⟩, (encode_eq_ok_iff.1 ⟨e, he⟩).1⟩
  · rintro ⟨⟨r, hr⟩, hle⟩
    rw [← Registry.size_of_ofProblem hr] at hle
    obtain ⟨e, he⟩ := encode_eq_ok_iff.2 ⟨hle, knowsAll_of_ofProblem hr⟩
    exact ⟨r, e.clauses, encodeProblem_eq_ok_iff.2 ⟨hr, e, he, rfl⟩⟩

/-! ### The clauses in integers

An object of a problem is numbered by its position, so the integers of the clauses can be told from
the problem, without a registry. -/

/-- The integer of a literal over the objects of a problem. -/
def Problem.intOf (p : Problem) (l : ObjectLit) : Int :=
  if l.value then (p.position l.object + 1 : Nat) else -(p.position l.object + 1 : Nat)

theorem ObjectLit.NumberedAs.toInt_eq {r : Registry} (hr : Registry.ofProblem p = .ok r)
    {l : ObjectLit} {k : Lit} (h : l.NumberedAs r k) : k.toInt = p.intOf l := by
  have hobj : p.objects[k.var.index]? = some l.object := by
    rw [← (Registry.objects_of_ofProblem hr).1, Array.getElem?_toList]
    exact Registry.varOf_eq_ok_iff.1 h.1
  have hsmall : k.var.index < UInt32.size := Nat.lt_trans k.var.index_lt (by decide)
  rw [Lit.toInt, Problem.intOf, k.var.id_eq_index_succ, Problem.eq_position hsmall hobj, h.2]

/-- **The clauses of a problem are its clauses over objects in integers.** -/
theorem map_toInts_of_encodeProblem {r : Registry} {cs : List Clause}
    (h : encodeProblem p config = .ok (r, cs)) :
    cs.map Clause.toInts = (objectClauses p.actions.toList).map fun c => c.lits.map p.intOf := by
  obtain ⟨hr, e, he, rfl⟩ := encodeProblem_eq_ok_iff.1 h
  rw [Encoding.clauses, List.map_map, eq_comm, ← List.forall₂_eq_eq_eq, List.forall₂_map_left_iff,
    List.forall₂_map_right_iff]
  refine (numberedAs_of_encode he).imp fun c d hd => ?_
  rw [Function.comp_apply, Clause.toInts, ← List.forall₂_eq_eq_eq, List.forall₂_map_left_iff,
    List.forall₂_map_right_iff]
  exact hd.2.imp fun l k hk => (hk.toInt_eq hr).symm

/-! ## Consulting the oracle -/

/-- A model is read back as a plan, or it has a variable of no object. -/
theorem ofVerdict_satisfiable_cases (r : Registry) (m : Model) :
    (∃ v, Outcome.ofVerdict r (.satisfiable m) = .ok (.plan ⟨.ofValuation v, v⟩)) ∨
      ∃ i, Outcome.ofVerdict r (.satisfiable m) = .error (.outOfRange i r.size) := by
  rw [Outcome.ofVerdict]
  rcases hv : r.decode m.lits with fault | v
  · obtain ⟨i, rfl⟩ := Registry.exists_of_decode_eq_error hv
    exact .inr ⟨i, rfl⟩
  · exact .inl ⟨v, rfl⟩

/-- **The whole way, stage by stage.**  The world is left alone until the oracle is consulted. -/
theorem run_solve {W : Type} (o : Oracle (StateM W)) (p : Problem) (config : Config) (w : W) :
    (solve o p config).run w =
      match encodeProblem p config with
      | .error fault => (.error fault, w)
      | .ok (r, cs) =>
        if p.goalHoldsInitially then (.ok (.plan ⟨.empty, []⟩), w)
        else
          let asked := (o.consult r.size (max config.expectedClauses.toNat cs.length) cs).run w
          (Outcome.ofAnswer r asked.1, asked.2) := by
  rw [solve]
  rcases encodeProblem p config with fault | ⟨r, cs⟩
  · rfl
  · cases p.goalHoldsInitially <;> rfl

/-- **The ways in which solving ends**: the problem is not encoded, the goal holds before any
action, or the oracle answers. -/
theorem solve_cases {W : Type} {o : Oracle (StateM W)} {w w' : W}
    {result : Except PlanFault Outcome} (h : (solve o p config).run w = (result, w')) :
    (∃ fault, encodeProblem p config = .error fault ∧ result = .error fault) ∨
    ∃ r cs, encodeProblem p config = .ok (r, cs) ∧
      (p.goalHoldsInitially = true ∧ result = .ok (.plan ⟨.empty, []⟩) ∨
        p.goalHoldsInitially = false ∧ ∃ answer,
          (o.consult r.size (max config.expectedClauses.toNat cs.length) cs).run w = (answer, w') ∧
          result = Outcome.ofAnswer r answer) := by
  rw [run_solve] at h
  rcases henc : encodeProblem p config with fault | ⟨r, cs⟩
  · rw [henc] at h
    cases h
    exact .inl ⟨fault, rfl, rfl⟩
  · refine .inr ⟨r, cs, rfl, ?_⟩
    rw [henc] at h
    rcases hgoal : p.goalHoldsInitially
    · rw [hgoal] at h
      cases h
      exact .inr ⟨rfl, _, rfl, rfl⟩
    · rw [hgoal] at h
      cases h
      exact .inl ⟨rfl, rfl⟩

end SnapshotPlan
