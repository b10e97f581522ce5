import SnapshotPlan.Proofs.Encoding.Shape
import SnapshotPlan.Proofs.Oracle.Search
import SnapshotPlan.Proofs.Planner.Stages
import SnapshotPlan.Proofs.World.States

/-!
# A problem always has a model

The clauses of a problem say what its actions imply and nothing else: neither the initial state nor
the goal leaves a trace in them.  So whatever is chosen, one may always choose less, and choosing
nothing is a model.  An oracle that is right about clauses never calls a problem unsatisfiable,
however far out of reach its goal is.

## What is here

* `Registry.silence` — the assignment that makes some more actions false.
* `satisfies_silence`, `satisfies_of_actions_false` — **choosing less keeps the clauses satisfied,
  and choosing nothing satisfies them.**
* `solve_ne_unsatisfiable` — what follows for solving.
-/

set_option autoImplicit false

namespace SnapshotPlan

/-! ## Choosing less

An action that is false is respected without more ado, and making it false takes nothing away
from the others, since fluents keep their values. -/

namespace Registry

variable {r : Registry} {S : ActionId → Bool} {σ : Assignment}

/-- The assignment that makes the variables of the actions in `S` false and leaves the others as
they are. -/
def silence (r : Registry) (S : ActionId → Bool) (σ : Assignment) : Assignment := fun v =>
  match r.objectOf v with
  | .ok (.action a) => !S a && σ v
  | _ => σ v

theorem read_silence_fluent (f : FluentId) :
    r.read (r.silence S σ) (.fluent f) = r.read σ (.fluent f) := by
  rcases hv : r.varOf (.fluent f) with fault | v
  · rw [read, read, hv]
  · rw [read_of_varOf hv, read_of_varOf hv, silence, varOf_eq_ok_iff_objectOf.1 hv]

theorem read_silence_action (a : ActionId) :
    r.read (r.silence S σ) (.action a) = (!S a && r.read σ (.action a)) := by
  rcases hv : r.varOf (.action a) with fault | v
  · rw [read, read, hv, Bool.and_false]
  · rw [read_of_varOf hv, read_of_varOf hv, silence, varOf_eq_ok_iff_objectOf.1 hv]

end Registry

/-- An action stays respected if the fluents keep their values and it does not become true. -/
theorem Action.RespectedBy.of_le {τ τ' : Object → Bool} {id : ActionId} {a : Action}
    (h : a.RespectedBy τ id) (hfluent : ∀ f, τ' (.fluent f) = τ (.fluent f))
    (hid : τ' (.action id) = true → τ (.action id) = true) : a.RespectedBy τ' id := by
  have hcond : ∀ c : Condition, c.HoldsUnder τ' ↔ c.HoldsUnder τ := fun c => by
    simp only [Condition.HoldsUnder, hfluent]
  have heffect : ∀ e : Effect, e.HoldsUnder τ' ↔ e.HoldsUnder τ := fun e => by
    simp only [Effect.HoldsUnder, hfluent]
  intro htrue
  obtain ⟨hpre, heff⟩ := h (hid htrue)
  refine ⟨(hcond _).2 hpre, fun e he hguard => ?_⟩
  exact (heffect _).2 (heff e he ((hcond _).1 hguard))

section Encoded

variable {maxVariables : Nat} {actions : List Action} {r : Registry} {e : Encoding}
  {σ : Assignment}

/-- **Choosing less keeps the clauses satisfied.** -/
theorem satisfies_silence (h : encode maxVariables actions r = .ok e)
    (hσ : Satisfies σ e.clauses) (S : ActionId → Bool) : Satisfies (r.silence S σ) e.clauses := by
  rw [satisfies_iff_holds_objectClauses h, holds_objectClauses_iff] at hσ ⊢
  intro i a ha
  refine (hσ i a ha).of_le Registry.read_silence_fluent fun htrue => ?_
  rw [Registry.read_silence_action] at htrue
  exact (Bool.and_eq_true_iff.1 htrue).2

/-- **Choosing nothing satisfies the clauses.** -/
theorem satisfies_of_actions_false (h : encode maxVariables actions r = .ok e)
    (hσ : ∀ a v, r.actionVar a = .ok v → σ v = false) : Satisfies σ e.clauses := by
  rw [satisfies_iff_holds_objectClauses h, holds_objectClauses_iff]
  intro i a _ htrue
  obtain ⟨v, hv, hvtrue⟩ := Registry.read_eq_true_iff.1 htrue
  rw [hσ _ v hv] at hvtrue
  cases hvtrue

end Encoded

/-! ## Solving -/

section Solving

variable {p : Problem} {config : Config} {r : Registry} {cs : List Clause} {W : Type}
  {o : Oracle (StateM W)} {w : W}

theorem not_blatant_of_encodeProblem (h : encodeProblem p config = .ok (r, cs)) {c : Clause}
    (hc : c ∈ cs) (before : List Clause) : ¬ Oracle.Blatant r.size before c := by
  obtain ⟨-, e, he, rfl⟩ := encodeProblem_eq_ok_iff.1 h
  exact Oracle.not_blatant (two_le_length_of_mem_clauses he hc)
    fun l hl => id_le_of_mem_clauses he hc hl

theorem exists_satisfies_of_encodeProblem (h : encodeProblem p config = .ok (r, cs)) :
    ∃ σ, Satisfies σ cs := by
  obtain ⟨-, e, he, rfl⟩ := encodeProblem_eq_ok_iff.1 h
  exact ⟨fun _ => false, satisfies_of_actions_false he fun _ _ _ => rfl⟩

/-- Once a problem is encoded, an oracle that is right about clauses neither denies nor refuses
them. -/
theorem solve_of_encodeProblem (h : encodeProblem p config = .ok (r, cs))
    (hrefuses : o.RefusesOnlyBlatant) (hdenies : o.DeniesOnlyUnsatisfiable) :
    ((solve o p config).run w).1 ≠ .ok .unsatisfiable ∧
      ∀ fault, ((solve o p config).run w).1 = .error (.oracle fault) → ¬ fault.IsRefusal := by
  rcases hsolve : (solve o p config).run w with ⟨result, w'⟩
  obtain ⟨fault, hfault, -⟩ | ⟨r', cs', h', ⟨-, rfl⟩ | ⟨-, answer, hans, rfl⟩⟩ := solve_cases hsolve
  · rw [h] at hfault
    cases hfault
  · exact ⟨(fun he => nomatch he), fun fault he => nomatch he⟩
  · rw [h] at h'
    cases h'
    rcases answer with fault | ⟨m⟩ | _
    · refine ⟨(fun he => nomatch he), fun fault' he => ?_⟩
      cases he
      exact Oracle.not_isRefusal_of_consult hrefuses
        (fun c hc before => not_blatant_of_encodeProblem h hc before) hans
    · obtain ⟨v, hv⟩ | ⟨i, hi⟩ := ofVerdict_satisfiable_cases r m
      · rw [Outcome.ofAnswer, hv]
        exact ⟨(fun he => nomatch he), fun fault he => nomatch he⟩
      · rw [Outcome.ofAnswer, hi]
        exact ⟨(fun he => nomatch he), fun fault he => nomatch he⟩
    · obtain ⟨σ, hσ⟩ := exists_satisfies_of_encodeProblem h
      exact absurd hans (Oracle.consult_ne_unsatisfiable hdenies hσ)

end Solving

/-- **A problem always has a model.**  If there are enough variables for its fluents and actions,
then it is encoded, its clauses are satisfied whenever nothing is chosen, and they stay satisfied
when less is chosen.  So an oracle that refuses only blatant clauses, and calls clauses
unsatisfiable only if they are, neither refuses a clause of the problem nor denies that it has a
model. -/
theorem solve_ne_unsatisfiable {p : Problem} {config : Config}
    (hvars : p.numFluents + p.numActions ≤ config.maxVariables.toNat)
    (hmax : p.numFluents + p.numActions ≤ Var.maxId) :
    ∃ r cs, encodeProblem p config = .ok (r, cs) ∧
      (∀ σ, Satisfies σ cs → ∀ S, Satisfies (r.silence S σ) cs) ∧
      (∀ σ, (∀ a v, r.actionVar a = .ok v → σ v = false) → Satisfies σ cs) ∧
      ∀ {W : Type} (o : Oracle (StateM W)), o.RefusesOnlyBlatant → o.DeniesOnlyUnsatisfiable →
        ∀ w, ((solve o p config).run w).1 ≠ .ok .unsatisfiable ∧
          ∀ fault, ((solve o p config).run w).1 = .error (.oracle fault) → ¬ fault.IsRefusal := by
  obtain ⟨r, cs, henc⟩ := exists_encodeProblem_iff.2 ⟨hmax, hvars⟩
  obtain ⟨-, e, he, rfl⟩ := encodeProblem_eq_ok_iff.1 henc
  refine ⟨r, e.clauses, henc, fun σ hσ S => satisfies_silence he hσ S, fun σ hσ => ?_, ?_⟩
  · exact satisfies_of_actions_false he hσ
  · intro W o hrefuses hdenies w
    exact solve_of_encodeProblem henc hrefuses hdenies

/-- One fluent, which the goal asks for, and one action that makes it true, but only where it is
true already. -/
def bootstrap : Problem where
  fluents := #["up"]
  actions := #[⟨"boot", .ofLists [.ofNat 0] [], [⟨.empty, .ofLists [.ofNat 0] []⟩]⟩]
  initial := .empty
  goal := .ofLists [.ofNat 0] []
  names_nodup := by decide
  actions_declared := by
    intro a ha f hf
    obtain rfl := Array.mem_singleton.1 ha
    revert f
    decide
  initial_declared := by
    show ∀ f ∈ InitialState.mentions _, _
    decide
  goal_declared := by
    show ∀ f ∈ Condition.mentions _, _
    decide

theorem entails_goal_of_runs_bootstrap {as : List Action} {s : State}
    (h : bootstrap.Runs as bootstrap.initialFullState s) : s.entails bootstrap.goal = false := by
  cases h with
  | nil => decide +kernel
  | cons mem enabled _ =>
    -- The only action there is cannot be the first one to be executed.
    obtain rfl := Array.mem_singleton.1 mem
    exact absurd enabled (by decide +kernel)

/-- The goal is out of reach here, and the built-in oracle does not say so. -/
theorem solve_ne_unsatisfiable_bootstrap :
    (∀ as s, bootstrap.Runs as bootstrap.initialFullState s → s.entails bootstrap.goal = false) ∧
      ((solve (searchOracle (m := StateM Unit) .alwaysLate none) bootstrap ⟨2, 0, none⟩).run ()).1 ≠
        .ok .unsatisfiable := by
  obtain ⟨r, cs, -, -, -, hsolve⟩ :=
    @solve_ne_unsatisfiable bootstrap ⟨2, 0, none⟩ (by decide) (by decide)
  refine ⟨fun as s => entails_goal_of_runs_bootstrap, ?_⟩
  exact (hsolve _ refusesOnlyBlatant_searchOracle deniesOnlyUnsatisfiable_searchOracle ()).1

end SnapshotPlan
