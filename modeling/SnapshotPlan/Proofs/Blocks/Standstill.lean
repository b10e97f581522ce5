import SnapshotPlan.Proofs.Blocks.Tower
import SnapshotPlan.Proofs.Planner.Standstill

/-!
# Blocks stay where they are

A block is taken from a place in which it has to stand and in which it no longer stands, so every
action of a blocks world undoes what it needs, and the planner never takes one.  However high the
tower of the goal, the plan is empty.

## What is here

* `selfDefeating_of_mem_actions` — **every action is self-defeating.**
* `generate_standstill` — what that means for the clauses, and for plans.
* `idle` — an oracle that makes everything false.
-/

set_option autoImplicit false

namespace SnapshotPlan.Blocks

variable {n : Nat}

/-- The block has to stand in its place, and no longer does. -/
theorem Transfer.selfDefeating_action (t : Transfer n) (name : String) :
    (t.action name).SelfDefeating :=
  ⟨standing n t.block t.source, FluentSet.mem_ofList.2 List.mem_cons_self, _,
    List.mem_singleton_self _, rfl, FluentSet.mem_ofList.2 List.mem_cons_self⟩

/-- **Every action is self-defeating.** -/
theorem selfDefeating_of_mem_actions {a : Action} (h : a ∈ actions n) : a.SelfDefeating := by
  obtain ⟨t, name, rfl⟩ := exists_transfer_of_mem_actions h
  exact t.selfDefeating_action name

/-- **Nothing is ever moved.**  If there are variables for a blocks world, then its clauses say that
every action is false, and nothing about the fluents; and whatever complete model an oracle returns,
the plan is empty. -/
theorem generate_standstill (n : Nat) (config : Config)
    (hsize : n * (n + 1) + n * n * (n - 1) ≤ min config.maxVariables.toNat Var.maxId) :
    ∃ p r F, generate n = .ok p ∧ Registry.ofProblem p = .ok r ∧ p.toFormula config = .ok F ∧
      (∀ v : Var, (∃ id, r.actionVar id = .ok v) ↔
        n * (n + 1) < v.id ∧ v.id ≤ n * (n + 1) + n * n * (n - 1)) ∧
      (∀ σ : Assignment,
        Satisfies σ F.clauses ↔ ∀ id v, r.actionVar id = .ok v → σ v = false) ∧
      ∀ {W : Type} (o : Oracle (StateM W)) (w : W),
        o.ReturnsModel r.size (max config.expectedClauses.toNat F.clauses.length) F.clauses w →
          ∃ v, ((solve o p config).run w).1 = .ok (.plan ⟨.empty, v⟩) := by
  obtain ⟨p, hp, hworld⟩ := exists_generate n
  have hall : ∀ a ∈ p.actions, a.SelfDefeating := fun a ha =>
    selfDefeating_of_mem_actions (hworld.mem_actions.1 ha)
  have henough : p.numFluents + p.numActions ≤ Var.maxId ∧
      p.numFluents + p.numActions ≤ config.maxVariables.toNat := by
    rw [hworld.numFluents_eq, hworld.numActions_eq]
    exact (Nat.le_min.1 hsize).symm
  obtain ⟨r, cs, henc⟩ := exists_encodeProblem_iff.2 henough
  have hr := (encodeProblem_eq_ok_iff.1 henc).1
  have hformula : p.toFormula config = .ok (.ofClauses r.size cs) := by
    rw [Problem.toFormula, henc]
    rfl
  refine ⟨p, r, _, hp, hr, hformula, fun v => ?_, fun σ => ?_, fun o w ho => ?_⟩
  · rw [Registry.exists_actionVar_iff hr, hworld.numFluents_eq, hworld.numActions_eq]
  · exact satisfies_iff_actions_false hall henc
  · exact plan_eq_empty_of_returnsModel hall henc ho

/-! ## An oracle that makes everything false -/

/-- The oracle takes all clauses and answers that every variable is false. -/
def idle : Oracle (StateM Unit) where
  Instance := Nat
  newInstance := fun n _ => pure n
  addClause := fun i _ => pure (.ok i)
  verdict := fun n => pure (.ok (.satisfiable (.ofValues (List.replicate n false))))

theorem isComplete_replicate (n : Nat) :
    (Model.ofValues (List.replicate n false)).IsComplete n where
  inside := by
    intro l hl
    obtain ⟨i, hi⟩ := List.mem_iff_getElem?.1 hl
    obtain ⟨rfl, hvalue⟩ := Model.getElem?_ofValues_iff.1 hi
    have hlt := (List.getElem?_eq_some_iff.1 hvalue).1
    rw [List.length_replicate] at hlt
    rwa [l.var.id_eq_index_succ]
  decides := by
    intro v hv
    rw [v.id_eq_index_succ] at hv
    have hvalue : (List.replicate n false)[v.index]? = some false :=
      List.getElem?_replicate_of_lt hv
    have hneg : v.neg ∈ (Model.ofValues (List.replicate n false)).lits :=
      List.mem_of_getElem? (Model.getElem?_ofValues_iff.2 ⟨rfl, hvalue⟩)
    have hassigned := Model.assignment_ofValues hvalue
    exact iff_of_false (of_decide_eq_false hassigned) (not_not.2 hneg)

theorem assignment_replicate (n : Nat) :
    (Model.ofValues (List.replicate n false)).assignment = fun _ => false := by
  refine funext fun v => decide_eq_false fun hmem => ?_
  obtain ⟨i, hi⟩ := List.mem_iff_getElem?.1 hmem
  have hvalue := List.mem_of_getElem? (Model.getElem?_ofValues_iff.1 hi).2
  cases (List.mem_replicate.1 hvalue).2

/-- Where nothing has to be true, the oracle returns a complete model. -/
theorem returnsModel_idle {cs : List Clause} (h : Satisfies (fun _ => false) cs)
    (n expected : Nat) : idle.ReturnsModel n expected cs () := by
  refine ⟨.ofValues (List.replicate n false), ?_, isComplete_replicate n, ?_⟩
  · rw [Oracle.run_consult_of_accepts fun _ _ _ => rfl]
    rfl
  · rw [assignment_replicate]
    exact h

/-- Three blocks are to be stacked, and nothing is done about it. -/
theorem generate_standstill_three :
    3 * (3 + 1) + 3 * 3 * (3 - 1) ≤ min (30 : UInt32).toNat Var.maxId ∧
      ∃ p r F, generate 3 = .ok p ∧ p.goalHoldsInitially = false ∧
        p.toFormula ⟨30, 0, none⟩ = .ok F ∧
        idle.ReturnsModel r (max 0 F.clauses.length) F.clauses () ∧
        ∃ v, ((solve idle p ⟨30, 0, none⟩).run ()).1 = .ok (.plan ⟨.empty, v⟩) := by
  obtain ⟨p, r, F, hp, -, hF, -, hsat, hplan⟩ :=
    generate_standstill 3 ⟨30, 0, none⟩ (by decide)
  obtain ⟨p', hp', hworld⟩ := exists_generate 3
  obtain rfl : p = p' := Except.ok.inj (hp.symm.trans hp')
  have hgoal : p.goalHoldsInitially = false := Bool.eq_false_iff.2 fun h =>
    absurd ((hworld.goalHoldsInitially_iff (by decide)).1 h) (by decide)
  have hidle := returnsModel_idle ((hsat _).2 fun _ _ _ => rfl) r.size
    (max (0 : UInt64).toNat F.clauses.length)
  exact ⟨by decide, p, r.size, F, hp, hgoal, hF, hidle, hplan idle () hidle⟩

end SnapshotPlan.Blocks
