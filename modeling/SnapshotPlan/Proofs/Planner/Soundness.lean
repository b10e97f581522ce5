import SnapshotPlan.Proofs.Encoding.Shape
import SnapshotPlan.Proofs.Oracle.Search
import SnapshotPlan.Proofs.Planner.Stages

/-!
# What a plan promises

A plan is read off a single valuation of fluents and actions, so it promises something about one
state, the one that the valuation describes: whatever is in the plan can be executed there, and
changes nothing.

## What is here

* `Action.enabledIn_of_respectedBy`, `Action.execute_eq_of_respectedBy` — an action that is true
  where it is respected can be executed, and leaves the facts as they are.
* `Solution.IsSnapshot` — what a solution is.
* `solve_isSnapshot` — **what solving returns is one**, with any oracle whose models can be trusted.
-/

set_option autoImplicit false

namespace SnapshotPlan

/-! ## Executing an action where it is respected -/

section Executing

variable {facts : FluentSet} {τ : Object → Bool} (h : ∀ f, f ∈ facts ↔ τ (.fluent f) = true)

include h

theorem Condition.holdsUnder_iff_holdsIn {c : Condition} : c.HoldsUnder τ ↔ c.HoldsIn facts := by
  simp only [Condition.HoldsIn, h, Bool.not_eq_true]
  exact Iff.rfl

theorem Action.enabledIn_of_respectedBy {id : ActionId} {a : Action} (ha : a.RespectedBy τ id)
    (hid : τ (.action id) = true) : a.EnabledIn facts :=
  (Condition.holdsUnder_iff_holdsIn h).1 (ha hid).1

/-- Every effect that fires holds already. -/
theorem Action.holdsUnder_of_mem_firing {id : ActionId} {a : Action} (ha : a.RespectedBy τ id)
    (hid : τ (.action id) = true) {e : Effect} (he : e ∈ a.firing facts) : e.HoldsUnder τ := by
  obtain ⟨ce, hce, rfl⟩ := List.mem_map.1 he
  obtain ⟨hmem, hguard⟩ := List.mem_filter.1 hce
  exact (ha hid).2 ce hmem ((Condition.holdsUnder_iff_holdsIn h).2 (of_decide_eq_true hguard))

/-- **Executing an action that is true changes nothing.** -/
theorem Action.execute_eq_of_respectedBy {id : ActionId} {a : Action} (ha : a.RespectedBy τ id)
    (hid : τ (.action id) = true) : a.execute facts = facts := by
  refine FluentSet.ext fun f => ?_
  rw [Action.mem_execute_iff]
  refine ⟨?_, fun hf => .inr ⟨?_, hf⟩⟩
  · rintro (⟨e, he, hf⟩ | ⟨-, hf⟩)
    · exact (h f).2 ((Action.holdsUnder_of_mem_firing h ha hid he).1 f hf)
    · exact hf
  · rintro ⟨e, he, hdel⟩
    have hfalse := (Action.holdsUnder_of_mem_firing h ha hid he).2 f hdel
    rw [(h f).1 hf] at hfalse
    cases hfalse

end Executing

/-! ## Snapshots -/

/-- The solution gives every fluent and every action of the problem a value, and its plan is the
actions that are true: in the state of the fluents that are true, each of them can be executed and
changes nothing. -/
structure Solution.IsSnapshot (p : Problem) (s : Solution) : Prop where
  /-- The valuation lists the fluents and then the actions, in the order of their numbers. -/
  objects_eq : s.valuation.map Prod.fst = p.fluentIds.map .fluent ++ p.actionIds.map .action
  nodup : (s.valuation.map Prod.fst).Nodup
  mem_plan_iff : ∀ id, id ∈ s.plan.actions ↔ (.action id, true) ∈ s.valuation
  increasing : s.plan.actions.Pairwise fun a b => a.toNat < b.toNat
  execute_eq : ∀ id ∈ s.plan.actions, ∃ a, p.actions[id.toNat]? = some a ∧
    a.EnabledIn s.valuation.facts ∧ a.execute s.valuation.facts = s.valuation.facts

variable {p : Problem} {config : Config}

/-- An action with a variable is an action of the problem. -/
theorem getElem?_actions_of_knows {r : Registry} (h : Registry.ofProblem p = .ok r) {id : ActionId}
    (hid : r.Knows (.action id)) : ∃ a, p.actions[id.toNat]? = some a := by
  obtain ⟨v, hv⟩ := hid
  rw [Registry.varOf_eq_ok_iff, ← Array.getElem?_toList, (Registry.objects_of_ofProblem h).1] at hv
  have hsize : Var.maxId < UInt32.size := by decide
  have hpos := Problem.eq_position (Nat.lt_trans v.index_lt hsize) hv
  have hlen := (List.getElem?_eq_some_iff.1 hv).1
  rw [Problem.length_objects, hpos, Problem.position] at hlen
  exact ⟨_, Array.getElem?_eq_getElem (Nat.lt_of_add_lt_add_left hlen)⟩

/-- **The valuation of an assignment that satisfies the clauses is a snapshot.** -/
theorem isSnapshot_of_satisfies {r : Registry} {cs : List Clause}
    (h : encodeProblem p config = .ok (r, cs)) {σ : Assignment} (hσ : Satisfies σ cs) :
    Solution.IsSnapshot p ⟨.ofValuation (r.valuation σ), r.valuation σ⟩ := by
  obtain ⟨hr, e, he, rfl⟩ := encodeProblem_eq_ok_iff.1 h
  have hobj : (r.valuation σ).map Prod.fst = p.objects := by
    rw [Registry.map_fst_valuation, (Registry.objects_of_ofProblem hr).1]
  have hmax := Registry.ofProblem_eq_ok_iff.1 ⟨r, hr⟩
  have hfacts : ∀ f, f ∈ (r.valuation σ).facts ↔ r.read σ (.fluent f) = true := fun f => by
    rw [Valuation.mem_facts_iff, Registry.mem_valuation_iff]
  refine ⟨hobj, ?_, fun id => Plan.mem_ofValuation_iff, ?_, fun id hid => ?_⟩
  · rw [hobj]
    exact Problem.nodup_objects hmax
  · refine Plan.pairwise_ofValuation ?_
    rw [hobj]
    refine (Problem.pairwise_position hmax).imp fun {o o'} hlt a b ha hb => ?_
    rw [ha, hb] at hlt
    exact Nat.lt_of_add_lt_add_left hlt
  · have htrue : r.read σ (.action id) = true := by
      rw [Plan.mem_ofValuation_iff, Registry.mem_valuation_iff] at hid
      exact hid
    obtain ⟨v, hv, -⟩ := Registry.read_eq_true_iff.1 htrue
    obtain ⟨a, ha⟩ := getElem?_actions_of_knows hr ⟨v, hv⟩
    have hall := holds_objectClauses_iff.1 ((satisfies_iff_holds_objectClauses he σ).1 hσ)
    have hresp : a.RespectedBy (r.read σ) id := by
      rw [← id.ofNat_toNat]
      exact hall id.toNat a (by rw [Array.getElem?_toList]; exact ha)
    exact ⟨a, ha, Action.enabledIn_of_respectedBy hfacts hresp htrue,
      Action.execute_eq_of_respectedBy hfacts hresp htrue⟩

/-- **Solving is sound.**  If the models of the oracle can be trusted and the goal does not hold
before any action, then what solving returns is a snapshot. -/
theorem solve_isSnapshot {W : Type} {o : Oracle (StateM W)} (ho : o.AnswersModels) {w w' : W}
    {s : Solution} (h : (solve o p config).run w = (.ok (.plan s), w'))
    (hgoal : p.goalHoldsInitially = false) : s.IsSnapshot p := by
  obtain ⟨fault, -, hfault⟩ | ⟨r, cs, henc, ⟨htrue, -⟩ | ⟨-, answer, hans, hout⟩⟩ := solve_cases h
  · cases hfault
  · rw [hgoal] at htrue
    cases htrue
  · obtain ⟨hr, -⟩ := encodeProblem_eq_ok_iff.1 henc
    have hsize : r.size ≤ Var.maxId := by
      rw [Registry.size_of_ofProblem hr]
      exact Registry.ofProblem_eq_ok_iff.1 ⟨r, hr⟩
    rcases answer with fault | m | _
    · cases hout
    · obtain ⟨_, _, _, _, _, _, -, -, -, herr⟩ | ⟨i, w₁, hacc, hverdict⟩ :=
        Oracle.consult_cases hans
      · cases herr
      · obtain ⟨hlen, hord, hmeets⟩ := ho hsize hacc hverdict
        have hdecode := Registry.decode_lits hord hlen
        rw [Outcome.ofAnswer, Outcome.ofVerdict, hdecode] at hout
        cases hout
        exact isSnapshot_of_satisfies henc (Model.satisfies_assignment hord hmeets)
    · cases hout

/-! ## An oracle that says yes

Making everything true satisfies many encodings, and it puts every action in the plan.  So this
oracle, simple as it is, shows a plan that is not empty. -/

/-- The model in which the variables `1, …, n` are true. -/
def allTrue (n : Nat) : Model := .ofValues (List.replicate n true)

/-- An oracle that knows a single model, the one in which everything is true. -/
def optimist : Oracle (StateM Unit) where
  Instance := Nat × List Clause
  newInstance := fun n _ => pure (n, [])
  addClause := fun i c => pure (.ok (i.1, i.2 ++ [c]))
  verdict := fun i =>
    if (allTrue i.1).meets i.2 then pure (.ok (.satisfiable (allTrue i.1)))
    else pure (.error (.backend "no other model is known"))

section Optimist

variable {n : Nat} {cs : List Clause}

theorem length_allTrue (hn : n ≤ Var.maxId) : (allTrue n).lits.length = n := by
  rw [allTrue, Model.length_ofValues, List.length_replicate, Nat.min_eq_left hn]

theorem ordered_allTrue : (allTrue n).ordered = true := Model.ordered_ofValues

theorem assignment_allTrue {v : Var} (hv : v.id ≤ n) : (allTrue n).assignment v = true := by
  refine Model.assignment_ofValues ?_
  rw [v.id_eq_index_succ] at hv
  exact List.getElem?_replicate_of_lt hv

theorem eq_of_accepted_optimist {i : optimist.Instance} {w : Unit}
    (h : optimist.Accepted n cs i w) : i = (n, cs) := by
  induction h with
  | opened h =>
    cases h
    rfl
  | added _ hadd ih =>
    cases hadd
    rw [ih]

theorem answersModels_optimist : optimist.AnswersModels := by
  intro n cs i w w' m hn hacc hverdict
  obtain rfl := eq_of_accepted_optimist hacc
  by_cases hmeets : (allTrue n).meets cs = true
  · simp only [optimist, hmeets, if_true] at hverdict
    cases hverdict
    exact ⟨length_allTrue hn, ordered_allTrue, hmeets⟩
  · simp only [optimist, hmeets] at hverdict
    cases hverdict

/-- Where everything may be true, the optimist's answer is read back as a plan. -/
theorem run_solve_optimist {r : Registry} (henc : encodeProblem p config = .ok (r, cs))
    (hgoal : p.goalHoldsInitially = false) (hn : r.size ≤ Var.maxId)
    (hmeets : (allTrue r.size).meets cs = true) : (solve optimist p config).run () =
      (.ok (.plan ⟨.ofValuation (r.valuation (allTrue r.size).assignment),
        r.valuation (allTrue r.size).assignment⟩), ()) := by
  rcases hsolve : (solve optimist p config).run () with ⟨result, w⟩
  obtain ⟨fault, hfault, -⟩ | ⟨r', cs', henc', hout⟩ := solve_cases hsolve
  · rw [henc] at hfault
    cases hfault
  rw [henc] at henc'
  cases henc'
  obtain ⟨htrue, -⟩ | ⟨-, answer, hans, hresult⟩ := hout
  · rw [hgoal] at htrue
    cases htrue
  have hanswer : answer = .ok (.satisfiable (allTrue r.size)) := by
    obtain ⟨_, c, _, i, w₁, fault, -, -, hadd, -⟩ | ⟨i, w₁, hacc, hverdict⟩ :=
      Oracle.consult_cases hans
    · cases hadd
    · obtain rfl := eq_of_accepted_optimist hacc
      simp only [optimist, hmeets, if_true] at hverdict
      cases hverdict
      rfl
  rw [hresult, hanswer, Outcome.ofAnswer, Outcome.ofVerdict,
    Registry.decode_lits ordered_allTrue (length_allTrue hn)]
  rfl

end Optimist

/-- One fluent, which the goal asks for, and one action, which makes it true. -/
def errand : Problem where
  fluents := #["done"]
  actions := #[⟨"finish", .empty, [⟨.empty, .ofLists [.ofNat 0] []⟩]⟩]
  initial := .empty
  goal := .ofLists [.ofNat 0] []
  names_nodup := by decide
  actions_declared := by
    intro a ha f hf
    obtain rfl := Array.mem_singleton.1 ha
    revert f
    decide
  initial_declared := by
    show ∀ f ∈ InitialState.mentions _, _
    decide
  goal_declared := by
    show ∀ f ∈ Condition.mentions _, _
    decide

theorem run_solve_errand : ∃ s, (solve optimist errand ⟨2, 0, none⟩).run () =
    (.ok (.plan s), ()) ∧ .ofNat 0 ∈ s.plan.actions := by
  obtain ⟨r, cs, henc⟩ : ∃ r cs, encodeProblem errand ⟨2, 0, none⟩ = .ok (r, cs) :=
    exists_encodeProblem_iff.2 (by decide)
  obtain ⟨hr, e, he, rfl⟩ := encodeProblem_eq_ok_iff.1 henc
  have hmax : r.size ≤ Var.maxId := by rw [Registry.size_of_ofProblem hr]; decide
  have hread : ∀ (i : Nat) (o : Object), errand.objects[i]? = some o →
      r.read (allTrue r.size).assignment o = true := fun i o ho => by
    obtain ⟨v, hv, -⟩ := Registry.exists_varOf_of_ofProblem hr ho
    rw [Registry.read_of_varOf hv, assignment_allTrue (Registry.id_le_of_varOf hv)]
  have hcs : objectClauses errand.actions.toList =
      [⟨.positiveEffect, [⟨.action (.ofNat 0), false⟩, ⟨.fluent (.ofNat 0), true⟩]⟩] := rfl
  have hσ : Satisfies (allTrue r.size).assignment e.clauses := by
    rw [satisfies_iff_holds_objectClauses he, hcs, List.forall_mem_singleton]
    exact ⟨_, List.mem_cons_of_mem _ List.mem_cons_self, hread 0 _ rfl⟩
  have hmeets : (allTrue r.size).meets e.clauses = true := by
    refine Model.meets_of_satisfies ordered_allTrue (fun c hc l hl => ?_) hσ
    rw [length_allTrue hmax]
    exact id_le_of_mem_clauses he hc hl
  refine ⟨_, run_solve_optimist henc (by decide) hmax hmeets, ?_⟩
  rw [Plan.mem_ofValuation_iff, Registry.mem_valuation_iff]
  exact hread 1 _ rfl

/-- The optimist finishes the errand, and whatever plan comes from searching is a snapshot. -/
theorem solve_isSnapshot_errand :
    (∃ s, (solve optimist errand ⟨2, 0, none⟩).run () = (.ok (.plan s), ()) ∧
      .ofNat 0 ∈ s.plan.actions ∧ s.IsSnapshot errand) ∧
    ∀ {W : Type} (search : TimedSearch (StateM W)) (limit : Option Duration) {w w' : W}
      {s : Solution},
      (solve (searchOracle search limit) errand ⟨2, 0, none⟩).run w = (.ok (.plan s), w') →
        s.IsSnapshot errand := by
  obtain ⟨s, hrun, hmem⟩ := run_solve_errand
  refine ⟨⟨s, hrun, hmem, solve_isSnapshot answersModels_optimist hrun (by decide)⟩, ?_⟩
  intro W search limit w w' s h
  exact solve_isSnapshot answersModels_searchOracle h (by decide)

end SnapshotPlan
