import SnapshotPlan.Proofs.Oracle.Transcript
import SnapshotPlan.Proofs.Planner.Stages
import SnapshotPlan.Proofs.World.States

/-!
# What passes between the planner and an oracle

Solving a problem is a conversation with an oracle, about which nothing is assumed: it may refuse
what it likes and answer with any literals.  What is said to it, and what becomes of its answer, is
settled by the problem, the configuration and the oracle's own replies.

## What is here

* `Problem.GoalGiven` — the goal holds if nothing is true but what is said to be true initially.
* `Problem.Reads` — the outcome that an answer stands for.
* `Conversation` — the calls made in solving a problem, and what comes of them.
* `solve_protocol` — **solving is such a conversation**, and the oracle is left out of it exactly if
  the goal is given.
-/

set_option autoImplicit false

namespace SnapshotPlan

/-! ## Goals that need no plan -/

namespace Problem

/-- All that the goal asks to be true is said to be true initially, and nothing that it asks to be
false is. -/
def GoalGiven (p : Problem) : Prop :=
  (∀ f ∈ p.goal.positive, f ∈ p.initial.positive) ∧ ∀ f ∈ p.goal.negative, f ∉ p.initial.positive

theorem goalHoldsInitially_iff {p : Problem} : p.goalHoldsInitially = true ↔ p.GoalGiven := by
  rw [goalHoldsInitially, State.entails_iff, Condition.HoldsIn]
  simp only [initialFullState, State.mem_facts_ofInitial]
  exact Iff.rfl

/-! ## What an answer means -/

/-- The outcome that an oracle's answer stands for, where the fluents and then the actions have the
variables from one on. -/
inductive Reads (p : Problem) : Except OracleFault Verdict → Except PlanFault Outcome → Prop
  | fault (fault : OracleFault) : Reads p (.error fault) (.error (.oracle fault))
  | unsatisfiable : Reads p (.ok .unsatisfiable) (.ok .unsatisfiable)
  /-- `l` is the first literal of the model whose variable has no object. -/
  | beyond {before after : List Lit} {l : Lit}
      (inside : ∀ k ∈ before, k.var.id ≤ p.numFluents + p.numActions)
      (outside : p.numFluents + p.numActions < l.var.id) :
      Reads p (.ok (.satisfiable ⟨before ++ l :: after⟩))
        (.error (.outOfRange l.var.id (p.numFluents + p.numActions)))
  /-- Each literal stands for its object with its sign, and the plan is read off these. -/
  | plan {m : Model} {v : Valuation}
      (values : List.Forall₂ (fun l q => p.objects[l.var.index]? = some q.1 ∧ l.positive = q.2)
        m.lits v) :
      Reads p (.ok (.satisfiable m)) (.ok (.plan ⟨.ofValuation v, v⟩))

end Problem

variable {p : Problem} {config : Config}

/-- **The numbering of a problem reads every answer as it is meant.** -/
theorem reads_ofAnswer {r : Registry} (h : Registry.ofProblem p = .ok r)
    (answer : Except OracleFault Verdict) : p.Reads answer (Outcome.ofAnswer r answer) := by
  obtain ⟨hobj, -⟩ := Registry.objects_of_ofProblem h
  rcases answer with fault | m | _
  · exact .fault fault
  · rw [Outcome.ofAnswer, Outcome.ofVerdict]
    rcases hv : r.decode m.lits with fault | v
    · obtain ⟨before, l, after, hlits, inside, outside, rfl⟩ := Registry.first_of_decode_eq_error hv
      rw [Registry.size_of_ofProblem h] at inside outside ⊢
      obtain ⟨lits⟩ := m
      obtain rfl : lits = before ++ l :: after := hlits
      exact .beyond inside outside
    · refine .plan ((Registry.decode_eq_ok_iff.1 hv).imp fun l q hq => ?_)
      rw [← hobj, Array.getElem?_toList]
      exact hq
  · exact .unsatisfiable

/-! ## Conversations

There are three ways for solving to go, and in two of them nothing is said.  The relation has a
case for each, with what decides which one it is. -/

/-- What may pass between the planner and an oracle about a problem: the calls in order, the result,
and the world in the end. -/
inductive Conversation {W : Type} (o : Oracle (StateM W)) (p : Problem) (config : Config) (w : W) :
    List Oracle.Call → Except PlanFault Outcome → W → Prop
  /-- The problem is not encoded, whatever its goal. -/
  | unencoded {fault : PlanFault} (failed : encodeProblem p config = .error fault) :
      Conversation o p config w [] (.error fault) w
  /-- There is nothing to ask for. -/
  | settled {r : Registry} {cs : List Clause} (encoded : encodeProblem p config = .ok (r, cs))
      (given : p.GoalGiven) : Conversation o p config w [] (.ok (.plan ⟨.empty, []⟩)) w
  /-- The oracle is consulted once, about the clauses of the problem. -/
  | consulted {r : Registry} {cs : List Clause} {calls : List Oracle.Call}
      {answer : Except OracleFault Verdict} {result : Except PlanFault Outcome} {w' : W}
      (encoded : encodeProblem p config = .ok (r, cs)) (wanting : ¬ p.GoalGiven)
      (exchange : o.Exchange (p.numFluents + p.numActions)
        (max config.expectedClauses.toNat cs.length) w cs calls answer w')
      (reads : p.Reads answer result) : Conversation o p config w calls result w'

/-- In a conversation about a problem that is encoded, nothing is said to the oracle iff the goal is
given. -/
theorem Conversation.calls_eq_nil_iff {W : Type} {o : Oracle (StateM W)} {w w' : W}
    {calls : List Oracle.Call} {result : Except PlanFault Outcome}
    (h : Conversation o p config w calls result w') {r : Registry} {cs : List Clause}
    (henc : encodeProblem p config = .ok (r, cs)) :
    result = .ok (.plan ⟨.empty, []⟩) ∧ calls = [] ↔ p.GoalGiven := by
  cases h with
  | unencoded failed =>
    rw [henc] at failed
    cases failed
  | settled _ given => exact iff_of_true ⟨rfl, rfl⟩ given
  | consulted _ wanting exchange _ => exact iff_of_false (fun h => exchange.ne_nil h.2) wanting

/-- **Solving is a conversation.**  Whatever the oracle does, watching it shows what passes: a
problem that is not encoded is never mentioned to it; one that is encoded is left at the empty plan
without a call iff its goal is given; otherwise a single instance is opened, the clauses are offered
in order until one is refused, and if none is, the verdict is asked for once and read back. -/
theorem solve_protocol {W : Type} (o : Oracle (StateM W)) (p : Problem) (config : Config) (w : W) :
    ∃ calls result w', (solve o p config).run w = (result, w') ∧
      (solve o.observed p config).run (w, []) = (result, w', calls.reverse) ∧
      Conversation o p config w calls result w' ∧
      ∀ r cs, encodeProblem p config = .ok (r, cs) →
        (result = .ok (.plan ⟨.empty, []⟩) ∧ calls = [] ↔ p.GoalGiven) := by
  suffices h : ∃ calls result w', (solve o p config).run w = (result, w') ∧
      (solve o.observed p config).run (w, []) = (result, w', calls.reverse) ∧
      Conversation o p config w calls result w' by
    obtain ⟨calls, result, w', hrun, hobs, hconv⟩ := h
    exact ⟨calls, result, w', hrun, hobs, hconv, fun r cs henc => hconv.calls_eq_nil_iff henc⟩
  rw [run_solve, run_solve o.observed]
  rcases henc : encodeProblem p config with fault | ⟨r, cs⟩
  · exact ⟨[], _, _, rfl, rfl, .unencoded henc⟩
  · obtain ⟨hr, -⟩ := encodeProblem_eq_ok_iff.1 henc
    rcases hgoal : p.goalHoldsInitially
    · have hwanting : ¬ p.GoalGiven := by rw [← Problem.goalHoldsInitially_iff, hgoal]; nofun
      obtain ⟨calls, answer, w', hexchange, hrun, hobs⟩ :=
        Oracle.exchange_consult (o := o) r.size (max config.expectedClauses.toNat cs.length) cs w []
      rw [Registry.size_of_ofProblem hr] at hexchange
      refine ⟨calls, Outcome.ofAnswer r answer, w', ?_, ?_,
        .consulted henc hwanting hexchange (reads_ofAnswer hr answer)⟩
      · simp only [hrun, Bool.false_eq_true, if_false]
      · simp only [hobs, Bool.false_eq_true, if_false, List.append_nil]
    · exact ⟨[], _, _, rfl, rfl, .settled henc (Problem.goalHoldsInitially_iff.1 hgoal)⟩

/-- A doorbell: pressing it makes it ring and wakes someone. -/
def doorbell : Problem where
  fluents := #["ringing", "awake"]
  actions := #[⟨"press", .empty, [⟨.empty, .ofLists [.ofNat 0, .ofNat 1] []⟩]⟩]
  initial := .empty
  goal := .ofLists [.ofNat 1] []
  names_nodup := by decide
  actions_declared := by
    intro a ha f hf
    obtain rfl := Array.mem_singleton.1 ha
    revert f
    decide
  initial_declared := by
    show ∀ f ∈ InitialState.mentions _, _
    decide
  goal_declared := by
    show ∀ f ∈ Condition.mentions _, _
    decide

/-- The oracle takes as many clauses as it has patience for, and has its answer ready. -/
def impatient (answer : Except OracleFault Verdict) : Oracle (StateM Nat) where
  Instance := Unit
  newInstance := fun _ _ => pure ()
  addClause := fun _ _ patience => match patience with
    | 0 => (.error (.backend "enough"), 0)
    | n + 1 => (.ok (), n)
  verdict := fun _ => pure answer

/-- The action has the third variable, and its clauses say that it makes the first two true. -/
theorem exists_encodeProblem_doorbell : ∃ r c c',
    encodeProblem doorbell ⟨3, 5, none⟩ = .ok (r, [c, c']) ∧
      c.toInts = [-3, 1] ∧ c'.toInts = [-3, 2] := by
  obtain ⟨r, cs, henc⟩ : ∃ r cs, encodeProblem doorbell ⟨3, 5, none⟩ = .ok (r, cs) :=
    exists_encodeProblem_iff.2 (by decide)
  have hints : cs.map Clause.toInts = [[-3, 1], [-3, 2]] :=
    (map_toInts_of_encodeProblem henc).trans (by decide +kernel)
  obtain ⟨c, rest, rfl, hc, hrest⟩ := List.map_eq_cons_iff.1 hints
  obtain ⟨c', none, rfl, hc', hnone⟩ := List.map_eq_cons_iff.1 hrest
  obtain rfl := List.map_eq_nil_iff.1 hnone
  exact ⟨r, c, c', henc, hc, hc'⟩

/-- A model that says no more than that the third variable is true. -/
def third : Model := ⟨[(⟨3, by decide, by decide⟩ : Var).pos]⟩

/-- The doorbell is pressed, and nothing is known of what comes of it. -/
def press : Outcome := .plan ⟨⟨[.ofNat 0]⟩, [(.action (.ofNat 0), true)]⟩

theorem ofAnswer_third {r : Registry} (hr : Registry.ofProblem doorbell = .ok r) :
    Outcome.ofAnswer r (.ok (.satisfiable third)) = .ok press := by
  have hobj : r.objects[2]? = some (.action (.ofNat 0)) := by
    rw [← Array.getElem?_toList, (Registry.objects_of_ofProblem hr).1]
    decide +kernel
  have hdecode : r.decode third.lits = .ok [(.action (.ofNat 0), true)] :=
    Registry.decode_eq_ok_iff.2 (.cons ⟨hobj, rfl⟩ .nil)
  rw [Outcome.ofAnswer, Outcome.ofVerdict, hdecode]
  rfl

/-- An oracle with patience for both clauses hears them and is asked; one with patience for a single
clause is not asked. -/
theorem run_solve_doorbell {r : Registry} {c c' : Clause}
    (henc : encodeProblem doorbell ⟨3, 5, none⟩ = .ok (r, [c, c'])) :
    (solve (impatient (.ok (.satisfiable third))).observed doorbell ⟨3, 5, none⟩).run (2, []) =
        (.ok press, 0, [.verdict, .addClause c', .addClause c, .newInstance 3 5]) ∧
      (solve (impatient (.ok (.satisfiable third))).observed doorbell ⟨3, 5, none⟩).run (1, []) =
        (.error (.oracle (.backend "enough")), 0,
          [.addClause c', .addClause c, .newInstance 3 5]) := by
  have hr := (encodeProblem_eq_ok_iff.1 henc).1
  have hsize : r.size = 3 := Registry.size_of_ofProblem hr
  have hgoal : doorbell.goalHoldsInitially = false := by decide +kernel
  simp only [run_solve, henc, hgoal, hsize, Bool.false_eq_true, if_false, ← ofAnswer_third hr]
  exact ⟨rfl, rfl⟩

/-- **The doorbell in conversation**: a plan is read off the answer of the patient oracle, and the
refusal of the other one is the result. -/
theorem solve_protocol_doorbell : ∃ c c', c.toInts = [-3, 1] ∧ c'.toInts = [-3, 2] ∧
    ¬ doorbell.GoalGiven ∧
    Conversation (impatient (.ok (.satisfiable third))) doorbell ⟨3, 5, none⟩ 2
      [.newInstance 3 5, .addClause c, .addClause c', .verdict] (.ok press) 0 ∧
    Conversation (impatient (.ok (.satisfiable third))) doorbell ⟨3, 5, none⟩ 1
      [.newInstance 3 5, .addClause c, .addClause c'] (.error (.oracle (.backend "enough"))) 0 := by
  obtain ⟨r, c, c', henc, hc, hc'⟩ := exists_encodeProblem_doorbell
  obtain ⟨hpatient, himpatient⟩ := run_solve_doorbell henc
  have hwanting : ¬ doorbell.GoalGiven := by
    rw [← Problem.goalHoldsInitially_iff]
    decide +kernel
  have hconv : ∀ {w w' : Nat} {calls : List Oracle.Call} {result : Except PlanFault Outcome},
      (solve (impatient (.ok (.satisfiable third))).observed doorbell ⟨3, 5, none⟩).run (w, []) =
        (result, w', calls.reverse) →
      Conversation (impatient (.ok (.satisfiable third))) doorbell ⟨3, 5, none⟩ w calls
        result w' := by
    intro w w' calls result hrun
    obtain ⟨heard, result', w₁, -, hobs, hconv, -⟩ :=
      solve_protocol (impatient (.ok (.satisfiable third))) doorbell ⟨3, 5, none⟩ w
    have heq := hobs.symm.trans hrun
    cases List.reverse_inj.1 (congrArg (·.2.2) heq)
    cases heq
    exact hconv
  exact ⟨c, c', hc, hc', hwanting, hconv hpatient, hconv himpatient⟩

end SnapshotPlan
