import SnapshotPlan.Proofs.Planner.Satisfiable
import SnapshotPlan.Proofs.Planner.Soundness

/-!
# Actions that undo what they need

The fluents of a precondition and those of an effect are the same ones.  So an action that deletes
what it needs asks for a fluent both ways as soon as it is chosen, and it is never chosen.  Most
actions of a planning problem are like that: whatever is moved has to be somewhere first, and then
no longer is.

## What is here

* `Action.SelfDefeating` — the action deletes what it needs.
* `satisfies_iff_actions_false` — **if all actions are self-defeating, then the clauses say that
  none is chosen** and nothing else.
* `Model.IsComplete`, `Oracle.ReturnsModel` — what is expected of an oracle here.
* `plan_eq_empty_of_returnsModel` — **the plan is empty then.**
-/

set_option autoImplicit false

namespace SnapshotPlan

/-! ## Asking for a fluent both ways -/

/-- The action needs a fluent that it deletes wherever it is executed. -/
def Action.SelfDefeating (a : Action) : Prop :=
  ∃ f ∈ a.precondition.positive, ∃ e ∈ a.effects, e.guard = .empty ∧ f ∈ e.effect.negative

theorem Condition.holdsUnder_empty (τ : Object → Bool) : Condition.empty.HoldsUnder τ :=
  ⟨fun f hf => absurd hf (FluentSet.not_mem_empty f),
    fun f hf => absurd hf (FluentSet.not_mem_empty f)⟩

/-- **A self-defeating action that is respected is false.** -/
theorem Action.SelfDefeating.eq_false {a : Action} (h : a.SelfDefeating) {τ : Object → Bool}
    {id : ActionId} (ha : a.RespectedBy τ id) : τ (.action id) = false := by
  obtain ⟨f, hneeded, e, he, hguard, hdeleted⟩ := h
  by_contra hid
  obtain ⟨hpre, heffects⟩ := ha ((Bool.not_eq_false _).mp hid)
  have hfalse := (heffects e he (hguard ▸ Condition.holdsUnder_empty τ)).2 f hdeleted
  rw [hpre.1 f hneeded] at hfalse
  cases hfalse

variable {p : Problem} {config : Config} {r : Registry} {cs : List Clause}

/-! ## The variables of the actions

With all actions false nothing is asked for, so the clauses have just the models in which they
are.  Which variables these are is settled by the numbering: those beyond the fluents. -/

/-- The variables of the actions come after those of the fluents. -/
theorem Registry.exists_actionVar_iff (h : Registry.ofProblem p = .ok r) {v : Var} :
    (∃ id, r.actionVar id = .ok v) ↔
      p.numFluents < v.id ∧ v.id ≤ p.numFluents + p.numActions := by
  simp only [actionVar, varOf_eq_ok_iff, ← Array.getElem?_toList, (objects_of_ofProblem h).1]
  rw [v.id_eq_index_succ, Nat.lt_succ_iff, Nat.succ_le_iff]
  constructor
  · rintro ⟨id, hid⟩
    have hlen := (List.getElem?_eq_some_iff.1 hid).1
    rw [Problem.length_objects] at hlen
    refine ⟨Nat.not_lt.1 fun hlt => ?_, hlen⟩
    rw [Problem.getElem?_objects_of_lt hlt] at hid
    cases hid
  · rintro ⟨hle, hlt⟩
    obtain ⟨j, hj⟩ := Nat.exists_eq_add_of_le hle
    rw [hj] at hlt ⊢
    exact ⟨_, Problem.getElem?_objects_add (Nat.lt_of_add_lt_add_left hlt)⟩

/-- Whoever satisfies the clauses of a problem respects each of its actions that has a variable. -/
theorem exists_respectedBy_of_satisfies (h : encodeProblem p config = .ok (r, cs))
    {σ : Assignment} (hσ : Satisfies σ cs) {id : ActionId} {v : Var}
    (hv : r.actionVar id = .ok v) : ∃ a ∈ p.actions, a.RespectedBy (r.read σ) id := by
  obtain ⟨hr, e, he, rfl⟩ := encodeProblem_eq_ok_iff.1 h
  obtain ⟨a, ha⟩ := getElem?_actions_of_knows hr ⟨v, hv⟩
  have hall := holds_objectClauses_iff.1 ((satisfies_iff_holds_objectClauses he σ).1 hσ)
  refine ⟨a, Array.mem_of_getElem? ha, ?_⟩
  rw [← id.ofNat_toNat]
  exact hall id.toNat a (by rw [Array.getElem?_toList]; exact ha)

/-- **If all actions are self-defeating, then the clauses say that none is chosen**, and the fluents
may be as they like. -/
theorem satisfies_iff_actions_false (hall : ∀ a ∈ p.actions, a.SelfDefeating)
    (h : encodeProblem p config = .ok (r, cs)) {σ : Assignment} :
    Satisfies σ cs ↔ ∀ id v, r.actionVar id = .ok v → σ v = false := by
  refine ⟨fun hσ id v hv => ?_, fun hfalse => ?_⟩
  · obtain ⟨a, ha, hrespected⟩ := exists_respectedBy_of_satisfies h hσ hv
    rw [← Registry.read_of_varOf hv σ]
    exact (hall a ha).eq_false hrespected
  · obtain ⟨-, e, he, rfl⟩ := encodeProblem_eq_ok_iff.1 h
    exact satisfies_of_actions_false he hfalse

/-! ## Complete models -/

/-- The model has exactly one of the two literals of each of the variables `1, …, n`, in whatever
order, and no others. -/
structure Model.IsComplete (m : Model) (n : Nat) : Prop where
  inside : ∀ l ∈ m.lits, l.var.id ≤ n
  decides : ∀ v : Var, v.id ≤ n → (v.pos ∈ m.lits ↔ v.neg ∉ m.lits)

/-- Consulted in the world at hand, the oracle returns a complete model of the clauses. -/
def Oracle.ReturnsModel {W : Type} (o : Oracle (StateM W)) (n expected : Nat) (cs : List Clause)
    (w : W) : Prop :=
  ∃ m, ((o.consult n expected cs).run w).1 = .ok (.satisfiable m) ∧ m.IsComplete n ∧
    Satisfies m.assignment cs

/-- A model without literals beyond those of the registry is read back. -/
theorem Registry.exists_decode_of_inside {m : Model} (h : ∀ l ∈ m.lits, l.var.id ≤ r.size) :
    ∃ v, r.decode m.lits = .ok v := by
  rcases hdecode : r.decode m.lits with fault | v
  · obtain ⟨before, l, after, hlits, -, hout, -⟩ := first_of_decode_eq_error hdecode
    exact absurd (h l (hlits ▸ List.mem_append_right _ List.mem_cons_self)) (Nat.not_le.2 hout)
  · exact ⟨v, rfl⟩

/-- The actions of the plan are actions that the model makes true. -/
theorem Registry.exists_actionVar_of_mem_plan {m : Model} {v : Valuation}
    (h : r.decode m.lits = .ok v) {id : ActionId} (hid : id ∈ (Plan.ofValuation v).actions) :
    ∃ x, r.actionVar id = .ok x ∧ m.assignment x = true := by
  obtain ⟨l, hl, hobj, hsign⟩ := exists_left_of_forall₂ (decode_eq_ok_iff.1 h)
    (Plan.mem_ofValuation_iff.1 hid)
  refine ⟨l.var, varOf_eq_ok_iff.2 hobj, decide_eq_true ?_⟩
  rwa [show l.var.pos = l from Lit.ext rfl hsign.symm]

/-- **The plan is empty** if all actions are self-defeating and the oracle returns a complete model
of the clauses. -/
theorem plan_eq_empty_of_returnsModel (hall : ∀ a ∈ p.actions, a.SelfDefeating)
    (h : encodeProblem p config = .ok (r, cs)) {W : Type} {o : Oracle (StateM W)} {w : W}
    (ho : o.ReturnsModel r.size (max config.expectedClauses.toNat cs.length) cs w) :
    ∃ v, ((solve o p config).run w).1 = .ok (.plan ⟨.empty, v⟩) := by
  rw [run_solve, h]
  rcases hgoal : p.goalHoldsInitially
  · obtain ⟨m, hanswer, hcomplete, hsat⟩ := ho
    obtain ⟨v, hv⟩ := Registry.exists_decode_of_inside hcomplete.inside
    have hempty : Plan.ofValuation v = .empty := by
      refine congrArg Plan.mk (List.eq_nil_iff_forall_not_mem.2 fun id hid => ?_)
      obtain ⟨x, hx, htrue⟩ := Registry.exists_actionVar_of_mem_plan hv hid
      rw [(satisfies_iff_actions_false hall h).1 hsat id x hx] at htrue
      cases htrue
    refine ⟨v, ?_⟩
    simp only [hanswer, Bool.false_eq_true, if_false, Outcome.ofAnswer, Outcome.ofVerdict, hv,
      Except.map, hempty]
  · exact ⟨[], rfl⟩

end SnapshotPlan
