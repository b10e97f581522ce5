import SnapshotPlan.Proofs.Dimacs.RoundTrip
import SnapshotPlan.Proofs.Oracle.Transcript
import SnapshotPlan.Proofs.Planner.Refusals
import SnapshotPlan.Proofs.Planner.Soundness

/-!
# The formula of a problem

There are two ways to see the encoding of a problem: as a formula, which may be written down, and
as what is said to an oracle.  A formula counts its own variables and an oracle is told their
number, so the two might differ.  They do not, since no clause has a variable beyond the fluents
and actions.

## What is here

* `Formula.numVars_foldl_add` — clauses within the declared variables leave their number alone.
* `toFormula_eq_ok_iff` — **the formula is the clauses**, over the fluents and actions.
* `unasked_iff`, `exists_exchange_of_toFormula`, `calls_of_takes` — what an oracle that is watched
  hears of the problem.
* `toFormula_agrees` — **the formula and the oracle tell the same of a problem.**
-/

set_option autoImplicit false

namespace SnapshotPlan

/-- **Adding clauses within the declared variables leaves their number alone.** -/
theorem Formula.numVars_foldl_add {n : Nat} {cs : List Clause}
    (h : ∀ c ∈ cs, ∀ l ∈ c.lits, l.var.id ≤ n) : (cs.foldl add (declaring n)).numVars = n := by
  rw [foldl_add_eq_ofClauses]
  exact reachAll_eq_self h

variable {p : Problem} {config : Config}

/-- **The formula of a problem is its clauses** over its fluents and actions, and no more
variables. -/
theorem toFormula_eq_ok_iff {f : Formula} : p.toFormula config = .ok f ↔
    f.numVars = p.numFluents + p.numActions ∧
      ∃ r, encodeProblem p config = .ok (r, f.clauses) := by
  rw [Problem.toFormula]
  rcases henc : encodeProblem p config with fault | ⟨r, cs⟩
  · refine iff_of_false ?_ ?_
    · rintro ⟨⟩
    · rintro ⟨-, r, ⟨⟩⟩
  · show Except.ok (Formula.ofClauses r.size cs) = .ok f ↔ _
    have hvars : (Formula.ofClauses r.size cs).numVars = p.numFluents + p.numActions := by
      rw [Registry.size_of_ofProblem (encodeProblem_eq_ok_iff.1 henc).1]
      exact Formula.reachAll_eq_self fun c hc l hl => (id_mem_of_encodeProblem henc hc hl).2
    constructor
    · rintro ⟨⟩
      exact ⟨hvars, r, rfl⟩
    · rintro ⟨hf, r', h⟩
      obtain ⟨rfl, hcs⟩ := Prod.mk.inj (Except.ok.inj h)
      exact congrArg Except.ok (Formula.ext (hvars.trans hf.symm) hcs)

/-! ## What an oracle hears

An oracle that is watched is asked with nothing written down yet.  Solving either leaves it so,
and then there is no formula, or it is an exchange about the clauses of the formula. -/

section Solve

variable {W : Type}

/-- With a formula at hand, solving is consulting the oracle about it. -/
theorem exists_run_solve_of_toFormula {f : Formula} (h : p.toFormula config = .ok f)
    (hgoal : p.goalHoldsInitially = false) : ∃ r : Registry, ∀ {V : Type} (o : Oracle (StateM V))
      (v : V), (solve o p config).run v =
        let expected := max config.expectedClauses.toNat f.clauses.length
        let asked := (o.consult f.numVars expected f.clauses).run v
        (Outcome.ofAnswer r asked.1, asked.2) := by
  obtain ⟨hvars, r, henc⟩ := toFormula_eq_ok_iff.1 h
  refine ⟨r, fun o v => ?_⟩
  rw [run_solve, henc, hvars, ← Registry.size_of_ofProblem (encodeProblem_eq_ok_iff.1 henc).1]
  simp only [hgoal, Bool.false_eq_true, if_false]

/-- **A problem has no formula iff solving it fails before the oracle is asked**, and with the same
failure. -/
theorem unasked_iff {o : Oracle (StateM W)} {w : W} {fault : PlanFault} :
    (solve o.observed p config).run (w, []) = (.error fault, w, []) ↔
      p.toFormula config = .error fault := by
  rw [toFormula_eq_error_iff, run_solve]
  rcases henc : encodeProblem p config with fault' | ⟨r, cs⟩
  · constructor <;> rintro ⟨⟩ <;> rfl
  · refine iff_of_false (fun hrun => ?_) fun h => nomatch h
    rcases hgoal : p.goalHoldsInitially
    · -- A failure of the oracle, or of reading its answer, comes after at least one call to it.
      obtain ⟨calls, answer, w', hexchange, -, hobs⟩ := Oracle.exchange_consult (o := o) r.size
        (max config.expectedClauses.toNat cs.length) cs w []
      simp only [hgoal, Bool.false_eq_true, if_false, hobs, List.append_nil] at hrun
      have hcalls : calls.reverse = [] := congrArg (fun s => s.2.2) hrun
      exact hexchange.ne_nil (List.reverse_eq_nil_iff.1 hcalls)
    · simp only [hgoal, if_true] at hrun
      cases hrun

theorem run_solve_of_toFormula_error {o : Oracle (StateM W)} {w : W} {fault : PlanFault}
    (h : p.toFormula config = .error fault) : (solve o p config).run w = (.error fault, w) := by
  rw [run_solve, toFormula_eq_error_iff.1 h]

variable {f : Formula} (h : p.toFormula config = .ok f) (hgoal : p.goalHoldsInitially = false)

include h hgoal

/-- **Solving is an exchange about the formula**: its number of variables and its clauses. -/
theorem exists_exchange_of_toFormula (o : Oracle (StateM W)) (w : W) :
    ∃ calls answer result w', o.Exchange f.numVars
        (max config.expectedClauses.toNat f.clauses.length) w f.clauses calls answer w' ∧
      (solve o p config).run w = (result, w') ∧
      (solve o.observed p config).run (w, []) = (result, w', calls.reverse) := by
  obtain ⟨r, hrun⟩ := exists_run_solve_of_toFormula h hgoal
  obtain ⟨calls, answer, w', hexchange, hconsult, hobs⟩ := Oracle.exchange_consult (o := o)
    f.numVars (max config.expectedClauses.toNat f.clauses.length) f.clauses w []
  refine ⟨calls, answer, Outcome.ofAnswer r answer, w', hexchange, ?_, ?_⟩
  · simp only [hrun, hconsult]
  · simp only [hrun, hobs, List.append_nil]

/-- **An instance that accepts all clauses is offered the clauses of the formula.** -/
theorem calls_of_takes {o : Oracle (StateM W)} {w w₁ w₂ : W} {i i' : o.Instance}
    (opened : (o.newInstance f.numVars
      (max config.expectedClauses.toNat f.clauses.length)).run w = (i, w₁))
    (taken : o.Takes i w₁ f.clauses i' w₂) :
    ((solve o.observed p config).run (w, [])).2.2.reverse =
      .newInstance f.numVars (max config.expectedClauses.toNat f.clauses.length) ::
        f.clauses.map .addClause ++ [.verdict] := by
  obtain ⟨r, hrun⟩ := exists_run_solve_of_toFormula h hgoal
  simp only [hrun, Oracle.run_consult_observed_of_takes opened taken, List.append_nil,
    List.reverse_reverse]

end Solve

/-! ## Two views of one encoding -/

/-- **The formula of a problem and what an oracle hears of it agree.**  A problem has no formula iff
solving it fails before any call to the oracle, with the same failure.  Otherwise the formula has
one variable for each fluent and action, used or not, and adding its clauses one by one never
raises this number.  It is the number that an oracle is told, and the clauses of the formula are
those that an oracle is offered, all of them if it accepts them.  The formula is read back from its
text, as long as a header can hold its numbers. -/
theorem toFormula_agrees (p : Problem) (config : Config) :
    (∀ {W : Type} (o : Oracle (StateM W)) (w : W) (fault : PlanFault),
      (p.toFormula config = .error fault ↔
        (solve o.observed p config).run (w, []) = (.error fault, w, [])) ∧
      (p.toFormula config = .error fault → (solve o p config).run w = (.error fault, w))) ∧
    ∀ f, p.toFormula config = .ok f →
      f.numVars = p.numFluents + p.numActions ∧
      f = f.clauses.foldl Formula.add (.declaring (p.numFluents + p.numActions)) ∧
      (∀ cs, cs <+: f.clauses →
        (cs.foldl Formula.add (.declaring (p.numFluents + p.numActions))).numVars =
          p.numFluents + p.numActions) ∧
      (p.goalHoldsInitially = false → ∀ {W : Type} (o : Oracle (StateM W)) (w : W),
        let expected := max config.expectedClauses.toNat f.clauses.length
        (∃ calls answer result w',
          o.Exchange (p.numFluents + p.numActions) expected w f.clauses calls answer w' ∧
          (solve o p config).run w = (result, w') ∧
          (solve o.observed p config).run (w, []) = (result, w', calls.reverse)) ∧
        ∀ i w₁ i' w₂, (o.newInstance f.numVars expected).run w = (i, w₁) →
          o.Takes i w₁ f.clauses i' w₂ →
          ((solve o.observed p config).run (w, [])).2.2.reverse =
            .newInstance (p.numFluents + p.numActions) expected ::
              f.clauses.map .addClause ++ [.verdict]) ∧
      (p.numFluents + p.numActions ≤ Dimacs.maxVar → f.clauses.length < UInt64.size →
        Dimacs.read f.toDimacs = .ok f) := by
  refine ⟨fun o w fault => ⟨unasked_iff.symm, run_solve_of_toFormula_error⟩, fun f h => ?_⟩
  obtain ⟨hvars, -⟩ := toFormula_eq_ok_iff.1 h
  have hinside : ∀ c ∈ f.clauses, ∀ l ∈ c.lits, l.var.id ≤ p.numFluents + p.numActions := by
    rw [← hvars]
    exact f.declared
  rw [← hvars] at hinside ⊢
  refine ⟨rfl, ?_, fun cs hcs => ?_, fun hgoal W o w => ⟨?_, ?_⟩, Dimacs.read_toDimacs⟩
  · rw [Formula.foldl_add_eq_ofClauses]
    exact Formula.ext (Formula.reachAll_eq_self hinside).symm rfl
  · exact Formula.numVars_foldl_add fun c hc => hinside c (hcs.subset hc)
  · exact exists_exchange_of_toFormula h hgoal o w
  · exact fun i w₁ i' w₂ => calls_of_takes h hgoal

/-- A lantern that can be lit.  Nothing speaks of whether it is broken. -/
def lantern : Problem where
  fluents := #["broken", "lit"]
  actions := #[⟨"light", .empty, [⟨.empty, .ofLists [.ofNat 1] []⟩]⟩]
  initial := .empty
  goal := .ofLists [.ofNat 1] []
  names_nodup := by decide
  actions_declared := by
    intro a ha f hf
    obtain rfl := Array.mem_singleton.1 ha
    revert f
    decide
  initial_declared := by
    show ∀ f ∈ InitialState.mentions _, _
    decide
  goal_declared := by
    show ∀ f ∈ Condition.mentions _, _
    decide

/-- Lighting the lantern has the third variable, and being lit the second. -/
theorem exists_toFormula_lantern : ∃ f c, lantern.toFormula ⟨3, 0, none⟩ = .ok f ∧
    f.clauses = [c] ∧ c.toInts = [-3, 2] := by
  obtain ⟨r, cs, henc⟩ : ∃ r cs, encodeProblem lantern ⟨3, 0, none⟩ = .ok (r, cs) :=
    exists_encodeProblem_iff.2 (by decide)
  have hints : cs.map Clause.toInts = [[-3, 2]] :=
    (map_toInts_of_encodeProblem henc).trans (by decide +kernel)
  obtain ⟨c, rfl, hc⟩ := List.map_eq_singleton_iff.1 hints
  refine ⟨.ofClauses r.size [c], c, ?_, rfl, hc⟩
  rw [Problem.toFormula, henc]
  rfl

/-- With two variables there are too few, and neither view gets anywhere.  With three there is one
clause, which does not mention the first; an oracle hears of it, and it can be read back. -/
theorem toFormula_agrees_lantern :
    lantern.toFormula ⟨2, 0, none⟩ = .error (.overflow 3 2) ∧
    (solve optimist.observed lantern ⟨2, 0, none⟩).run ((), []) = (.error (.overflow 3 2), (), []) ∧
    ∃ f c, lantern.toFormula ⟨3, 0, none⟩ = .ok f ∧ f.numVars = 3 ∧ f.clauses = [c] ∧
      c.toInts = [-3, 2] ∧ Dimacs.read f.toDimacs = .ok f ∧
      ((solve optimist.observed lantern ⟨3, 0, none⟩).run ((), [])).2.2.reverse =
        [.newInstance 3 1, .addClause c, .verdict] := by
  have htight : lantern.toFormula ⟨2, 0, none⟩ = .error (.overflow 3 2) :=
    toFormula_eq_error_iff.2 (encodeProblem_of_exceeds (by decide) (by decide))
  obtain ⟨f, c, hf, hcs, hc⟩ := exists_toFormula_lantern
  obtain ⟨hvars, -, -, hheard, hread⟩ := (toFormula_agrees lantern ⟨3, 0, none⟩).2 f hf
  refine ⟨htight, ((toFormula_agrees lantern _).1 optimist () _).1.1 htight, f, c, hf, hvars, hcs,
    hc, hread (by decide) ?_, ?_⟩
  · rw [hcs]
    exact (by decide : 1 < UInt64.size)
  · have htakes : optimist.Takes (f.numVars, []) () f.clauses (f.numVars, [c]) () := by
      rw [hcs]
      exact .cons rfl (.nil _ _)
    have hcalls := (hheard (by decide) optimist ()).2 _ _ _ _ rfl htakes
    rw [hcs] at hcalls
    exact hcalls

end SnapshotPlan
