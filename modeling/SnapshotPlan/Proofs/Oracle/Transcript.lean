import SnapshotPlan.Proofs.Oracle.Contract

/-!
# Taking down what an oracle is asked

An oracle that is watched has every call to it written down.  Watching changes nothing, and what is
written down shows how consulting an oracle goes, whatever it answers.

## What is here

* `Oracle.Exchange` — the calls made in consulting an oracle, and what comes of them.
* `Oracle.run_consult_observed_of_takes` — what is written down if all clauses are taken.
* `Oracle.exchange_consult` — **consulting an oracle is such an exchange**: one instance, the
  clauses in order up to the first refusal, and the verdict at most once.
-/

set_option autoImplicit false

namespace SnapshotPlan.Oracle

variable {W : Type}

/-! ## Exchanges -/

/-- What may pass between an oracle and someone who consults it about clauses over the variables
`1, …, n`: the calls in order, the answer, and the world in the end. -/
inductive Exchange (o : Oracle (StateM W)) (n expected : Nat) (w : W) :
    List Clause → List Call → Except OracleFault Verdict → W → Prop
  /-- A clause is refused, and that is all. -/
  | refused {before after : List Clause} {c : Clause} {i i' : o.Instance} {w₁ w₂ w' : W}
      {fault : OracleFault} (opened : (o.newInstance n expected).run w = (i, w₁))
      (taken : o.Takes i w₁ before i' w₂)
      (refusal : (o.addClause i' c).run w₂ = (.error fault, w')) :
      Exchange o n expected w (before ++ c :: after)
        (.newInstance n expected :: (before ++ [c]).map .addClause) (.error fault) w'
  /-- All clauses are accepted, and the verdict is asked for. -/
  | answered {cs : List Clause} {i i' : o.Instance} {w₁ w₂ w' : W}
      {answer : Except OracleFault Verdict} (opened : (o.newInstance n expected).run w = (i, w₁))
      (taken : o.Takes i w₁ cs i' w₂) (verdict : (o.verdict i').run w₂ = (answer, w')) :
      Exchange o n expected w cs
        (.newInstance n expected :: cs.map .addClause ++ [.verdict]) answer w'

variable {o : Oracle (StateM W)}

/-- An exchange has calls. -/
theorem Exchange.ne_nil {n expected : Nat} {w w' : W} {cs : List Clause} {calls : List Call}
    {answer : Except OracleFault Verdict} (h : o.Exchange n expected w cs calls answer w') :
    calls ≠ [] := by
  cases h <;> exact List.cons_ne_nil _ _

/-! ## Consulting an oracle

Calls are written down with the latest in front, so what is offered comes out reversed.  The
inductions carry the calls that were there before. -/

/-- Offering the first of several clauses to an oracle that is watched. -/
theorem run_offer_observed_cons (i : o.Instance) (c : Clause) (ds : List Clause) (w : W)
    (calls : List Call) : (o.observed.offer i (c :: ds)).run (w, calls) =
      match (o.addClause i c).run w with
      | (.error fault, w₁) => (.error fault, w₁, .addClause c :: calls)
      | (.ok i₁, w₁) => (o.observed.offer i₁ ds).run (w₁, .addClause c :: calls) := by
  have hobs : (o.observed.addClause i c).run (w, calls) = (((o.addClause i c).run w).1,
      ((o.addClause i c).run w).2, .addClause c :: calls) := rfl
  rw [run_offer_cons, hobs]
  rcases (o.addClause i c).run w with ⟨fault | i₁, w₁⟩ <;> rfl

/-- What is taken is written down, and the rest is offered to the instance that is left. -/
theorem Takes.run_offer {i i' : o.Instance} {w w' : W} {cs : List Clause}
    (h : o.Takes i w cs i' w') (ds : List Clause) : ∀ calls : List Call,
      (o.observed.offer i (cs ++ ds)).run (w, calls) =
        (o.observed.offer i' ds).run (w', (cs.map Call.addClause).reverse ++ calls) := by
  induction h with
  | nil => exact fun calls => rfl
  | cons hadd _ ih =>
    intro calls
    rw [List.cons_append, run_offer_observed_cons, hadd, List.map_cons, List.reverse_cons,
      List.append_assoc]
    exact ih _

/-- All that is taken is written down. -/
theorem Takes.run_offer_all {i i' : o.Instance} {w w' : W} {cs : List Clause}
    (h : o.Takes i w cs i' w') (calls : List Call) : (o.observed.offer i cs).run (w, calls) =
      (.ok i', w', (cs.map Call.addClause).reverse ++ calls) := by
  have hrun := h.run_offer [] calls
  rw [List.append_nil] at hrun
  exact hrun

theorem run_newInstance_observed {n expected : Nat} {w w₁ : W} {i : o.Instance}
    (h : (o.newInstance n expected).run w = (i, w₁)) (calls : List Call) :
    (o.observed.newInstance n expected).run (w, calls) =
      (i, w₁, .newInstance n expected :: calls) := by
  show (((o.newInstance n expected).run w).1, _, _) = _
  rw [h]

/-- **An instance that takes all clauses is offered all of them**, in order, and then asked. -/
theorem run_consult_observed_of_takes {n expected : Nat} {cs : List Clause} {i i' : o.Instance}
    {w w₁ w₂ : W} (opened : (o.newInstance n expected).run w = (i, w₁))
    (taken : o.Takes i w₁ cs i' w₂) (before : List Call) :
    (o.observed.consult n expected cs).run (w, before) =
      (((o.verdict i').run w₂).1, ((o.verdict i').run w₂).2,
        (Call.newInstance n expected :: cs.map Call.addClause ++ [Call.verdict]).reverse ++
          before) := by
  rw [consult, run_bind, run_newInstance_observed opened, run_bind, taken.run_offer_all]
  show (_, _, Call.verdict :: ((cs.map Call.addClause).reverse ++ _ :: before)) = _
  simp

/-- **Consulting an oracle is an exchange**, the same as if no one watched. -/
theorem exchange_consult (n expected : Nat) (cs : List Clause) (w : W) (before : List Call) :
    ∃ calls answer w', o.Exchange n expected w cs calls answer w' ∧
      (o.consult n expected cs).run w = (answer, w') ∧
      (o.observed.consult n expected cs).run (w, before) =
        (answer, w', calls.reverse ++ before) := by
  rcases hnew : (o.newInstance n expected).run w with ⟨i, w₁⟩
  rw [consult, run_bind, hnew, run_bind]
  obtain ⟨i', w₂, htakes, hrun⟩ | ⟨taken, c, after, i', w₂, fault, w', rfl, htakes, hadd, hrun⟩ :=
    offer_cases cs i w₁
  · rw [hrun, run_consult_observed_of_takes hnew htakes]
    rcases hverdict : (o.verdict i').run w₂ with ⟨answer, w'⟩
    exact ⟨_, answer, w', .answered hnew htakes hverdict, rfl, rfl⟩
  · refine ⟨_, .error fault, w', .refused hnew htakes hadd, ?_, ?_⟩
    · rw [hrun]
      rfl
    · rw [consult, run_bind, run_newInstance_observed hnew, run_bind, htakes.run_offer,
        run_offer_observed_cons, hadd]
      simp only [List.map_append, List.reverse_cons, List.reverse_append, List.append_assoc]
      rfl

end SnapshotPlan.Oracle
