import SnapshotPlan.Proofs.Encoding.Shape
import SnapshotPlan.Proofs.Planner.Stages

/-!
# The one reason not to encode a problem

Numbering may fail on an object that is listed twice, and encoding on one that is not numbered.
Neither happens with the objects of a problem: they are listed once, and the actions mention no
others.  So there is only the number of variables to complain about.

## What is here

* `Problem.Exceeds`, `Problem.excess` — the problem needs more variables than are allowed, and the
  failure that says so.
* `encodeProblem_eq_error_iff` — **nothing else prevents the encoding of a problem.**
* `solve_of_exceeds`, `error_of_solve` — solving a problem that exceeds its limit, and the failures
  that are left for one that does not.
* `encodeProblem_fails_only_by_excess` — all of it in one statement.
-/

set_option autoImplicit false

namespace SnapshotPlan

/-- The problem has more fluents and actions than there may be variables. -/
def Problem.Exceeds (p : Problem) (config : Config) : Prop :=
  config.maxVariables.toNat < p.numFluents + p.numActions

instance (p : Problem) (config : Config) : Decidable (p.Exceeds config) :=
  inferInstanceAs (Decidable (_ < _))

/-- The failure that tells how many variables are needed, and how many there may be. -/
def Problem.excess (p : Problem) (config : Config) : PlanFault :=
  .overflow (p.numFluents + p.numActions) config.maxVariables.toNat

variable {p : Problem} {config : Config}

/-! ## Encoding -/

theorem encodeProblem_of_exceeds (hmax : p.numFluents + p.numActions ≤ Var.maxId)
    (h : p.Exceeds config) : encodeProblem p config = .error (p.excess config) := by
  obtain ⟨r, hr⟩ := Registry.ofProblem_eq_ok_iff.2 hmax
  have hsize := Registry.size_of_ofProblem hr
  have henc : encode config.maxVariables.toNat p.actions.toList r = .error (p.excess config) := by
    rw [encode_of_size_lt (by rw [hsize]; exact h), hsize]
    rfl
  rw [encodeProblem, hr]
  show (encode _ _ r >>= fun e => pure (r, e.clauses)) = _
  rw [henc]
  rfl

/-- **A problem is encoded unless it exceeds the limit**, and then the failure says so. -/
theorem encodeProblem_eq_error_iff (hmax : p.numFluents + p.numActions ≤ Var.maxId)
    {fault : PlanFault} :
    encodeProblem p config = .error fault ↔ p.Exceeds config ∧ fault = p.excess config := by
  by_cases h : p.Exceeds config
  · rw [encodeProblem_of_exceeds hmax h, Except.error.injEq]
    exact ⟨fun e => ⟨h, e.symm⟩, fun e => e.2.symm⟩
  · obtain ⟨r, cs, henc⟩ := exists_encodeProblem_iff.2 ⟨hmax, Nat.not_lt.1 h⟩
    rw [henc]
    exact iff_of_false (fun e => nomatch e) fun e => h e.1

/-- Making a formula of the clauses adds no failure. -/
theorem toFormula_eq_error_iff {fault : PlanFault} :
    p.toFormula config = .error fault ↔ encodeProblem p config = .error fault := by
  rw [Problem.toFormula]
  rcases encodeProblem p config with fault' | ⟨r, cs⟩
  · constructor <;> rintro ⟨⟩ <;> rfl
  · exact iff_of_false (fun e => nomatch e) fun e => nomatch e

/-- **The variables of the clauses are those of the fluents and actions.** -/
theorem id_mem_of_encodeProblem {r : Registry} {cs : List Clause}
    (h : encodeProblem p config = .ok (r, cs)) {c : Clause} (hc : c ∈ cs) {l : Lit}
    (hl : l ∈ c.lits) : 1 ≤ l.var.id ∧ l.var.id ≤ p.numFluents + p.numActions := by
  obtain ⟨hr, e, he, rfl⟩ := encodeProblem_eq_ok_iff.1 h
  rw [← Registry.size_of_ofProblem hr]
  exact ⟨l.var.id_pos, id_le_of_mem_clauses he hc hl⟩

/-! ## Solving -/

section Solve

variable {W : Type} {o : Oracle (StateM W)} {w : W}

/-- **A problem that exceeds the limit is refused**, and the oracle is not asked. -/
theorem solve_of_exceeds (hmax : p.numFluents + p.numActions ≤ Var.maxId)
    (h : p.Exceeds config) : (solve o p config).run w = (.error (p.excess config), w) := by
  rw [solve, encodeProblem_of_exceeds hmax h]
  rfl

/-- The failures that come after encoding are those of the oracle, and that of reading a variable
which stands for nothing. -/
theorem error_of_ofAnswer {r : Registry} {answer : Except OracleFault Verdict} {fault : PlanFault}
    (h : Outcome.ofAnswer r answer = .error fault) :
    (∃ i, fault = .outOfRange i r.size) ∨ ∃ f, fault = .oracle f := by
  rcases answer with f | m | _
  · cases h
    exact .inr ⟨f, rfl⟩
  · rw [Outcome.ofAnswer] at h
    obtain ⟨v, hv⟩ | ⟨i, hi⟩ := ofVerdict_satisfiable_cases r m
    · rw [hv] at h
      cases h
    · rw [hi] at h
      cases h
      exact .inl ⟨i, rfl⟩
  · cases h

/-- **What may go wrong in solving a problem.** -/
theorem error_of_solve (hmax : p.numFluents + p.numActions ≤ Var.maxId) {fault : PlanFault}
    (h : ((solve o p config).run w).1 = .error fault) :
    p.Exceeds config ∧ fault = p.excess config ∨ ¬ p.Exceeds config ∧
      ((∃ i, fault = .outOfRange i (p.numFluents + p.numActions)) ∨ ∃ f, fault = .oracle f) := by
  rcases hrun : (solve o p config).run w with ⟨result, w'⟩
  rw [hrun] at h
  subst h
  obtain ⟨fault', henc, hfault⟩ | ⟨r, cs, henc, hend⟩ := solve_cases hrun
  · cases hfault
    exact .inl ((encodeProblem_eq_error_iff hmax).1 henc)
  · have hsize := Registry.size_of_ofProblem (encodeProblem_eq_ok_iff.1 henc).1
    have hle := (exists_encodeProblem_iff.1 ⟨r, cs, henc⟩).2
    refine .inr ⟨Nat.not_lt.2 hle, ?_⟩
    obtain ⟨-, hresult⟩ | ⟨-, answer, -, hresult⟩ := hend
    · cases hresult
    · rw [← hsize]
      exact error_of_ofAnswer hresult.symm

end Solve

/-- **Only the limit on variables can prevent the encoding of a problem.**  This is so for the
clauses, for the formula and for the first stage of solving, whatever the oracle.  What is encoded
has no variables but those of the fluents and actions. -/
theorem encodeProblem_fails_only_by_excess (p : Problem) (config : Config)
    (hmax : p.numFluents + p.numActions ≤ Var.maxId) :
    (∀ fault, encodeProblem p config = .error fault ↔
      p.Exceeds config ∧ fault = p.excess config) ∧
    (∀ fault, p.toFormula config = .error fault ↔ p.Exceeds config ∧ fault = p.excess config) ∧
    (∀ {W : Type} (o : Oracle (StateM W)) (w : W),
      (p.Exceeds config → (solve o p config).run w = (.error (p.excess config), w)) ∧
      ∀ fault, ((solve o p config).run w).1 = .error fault →
        p.Exceeds config ∧ fault = p.excess config ∨ ¬ p.Exceeds config ∧
          ((∃ i, fault = .outOfRange i (p.numFluents + p.numActions)) ∨
            ∃ f, fault = .oracle f)) ∧
    ∀ r cs, encodeProblem p config = .ok (r, cs) → r.size = p.numFluents + p.numActions ∧
      ∀ c ∈ cs, ∀ l ∈ c.lits, 1 ≤ l.var.id ∧ l.var.id ≤ p.numFluents + p.numActions := by
  refine ⟨fun fault => encodeProblem_eq_error_iff hmax, fun fault => ?_, fun o w => ?_, ?_⟩
  · exact toFormula_eq_error_iff.trans (encodeProblem_eq_error_iff hmax)
  · exact ⟨solve_of_exceeds hmax, fun fault => error_of_solve hmax⟩
  · intro r cs h
    refine ⟨Registry.size_of_ofProblem (encodeProblem_eq_ok_iff.1 h).1, ?_⟩
    exact fun c hc l hl => id_mem_of_encodeProblem h hc hl

/-- A switch that can be turned on while it is off. -/
def switch : Problem where
  fluents := #["on"]
  actions := #[⟨"turn", .ofLists [] [.ofNat 0], [⟨.empty, .ofLists [.ofNat 0] []⟩]⟩]
  initial := .empty
  goal := .ofLists [.ofNat 0] []
  names_nodup := by decide
  actions_declared := by
    intro a ha f hf
    obtain rfl := Array.mem_singleton.1 ha
    revert f
    decide
  initial_declared := by
    show ∀ f ∈ InitialState.mentions _, _
    decide
  goal_declared := by
    show ∀ f ∈ Condition.mentions _, _
    decide

/-- One variable is too few for the switch, and two are enough. -/
theorem encodeProblem_fails_only_by_excess_switch :
    switch.numFluents + switch.numActions ≤ Var.maxId ∧
      encodeProblem switch ⟨1, 0, none⟩ = .error (.overflow 2 1) ∧
      ∀ fault, encodeProblem switch ⟨2, 0, none⟩ ≠ .error fault := by
  have hmax : switch.numFluents + switch.numActions ≤ Var.maxId := by decide
  obtain ⟨htight, -⟩ := encodeProblem_fails_only_by_excess switch ⟨1, 0, none⟩ hmax
  obtain ⟨hwide, -⟩ := encodeProblem_fails_only_by_excess switch ⟨2, 0, none⟩ hmax
  refine ⟨hmax, (htight _).2 ⟨by decide, rfl⟩, fun fault h => ?_⟩
  exact absurd ((hwide fault).1 h).1 (by decide)

end SnapshotPlan
