import Mathlib.Algebra.GroupWithZero.Nat
import SnapshotPlan.Proofs.Encoding.Meaning
import SnapshotPlan.Proofs.Encoding.Shape

/-!
# Counting the clauses of an encoding

A tally says how many clauses there are of each role.  It is added up while clauses are emitted,
action by action, and it is known before anything is numbered: each clause stands for one fluent of
one of the sets of an action.

## What is here

* `Tally.count` — a tally as a function of the role.
* `roles_of_encode`, `count_roles` — the roles of the clauses, and how often each occurs in what an
  action implies.
* `encodeInTurn` — encoding actions one after another behind the same clauses.
* `encode_itemized` — **an encoding, clause by clause and number by number**, in one statement.
-/

set_option autoImplicit false

namespace SnapshotPlan

/-! ## Tallies as functions

A tally is read off by role.  Two tallies with the same counts are the same, so counting and
adding take one lemma each and not one for every field. -/

namespace Tally

/-- The number of clauses of one role. -/
def count (t : Tally) : Role → Nat
  | .positivePrecondition => t.positivePreconditions
  | .negativePrecondition => t.negativePreconditions
  | .positiveEffect => t.positiveEffects
  | .negativeEffect => t.negativeEffects

theorem ext_count {s t : Tally} (h : ∀ role, s.count role = t.count role) : s = t := by
  have h₁ := h .positivePrecondition
  have h₂ := h .negativePrecondition
  have h₃ := h .positiveEffect
  have h₄ := h .negativeEffect
  cases s
  cases t
  simp only [count] at h₁ h₂ h₃ h₄
  rw [h₁, h₂, h₃, h₄]

@[simp] theorem count_zero (role : Role) : zero.count role = 0 := by cases role <;> rfl

@[simp] theorem count_add (s t : Tally) (role : Role) :
    (s.add t).count role = s.count role + t.count role := by cases role <;> rfl

theorem count_one (role role' : Role) : (one role).count role' = [role].count role' := by
  cases role <;> cases role' <;> rfl

theorem total_add (s t : Tally) : (s.add t).total = s.total + t.total := by
  simp only [total, add]
  omega

/-- **A tally counts the roles of the clauses.** -/
theorem count_ofClauses (cs : List RoleClause) (role : Role) :
    (ofClauses cs).count role = (cs.map RoleClause.role).count role := by
  induction cs with
  | nil => exact count_zero role
  | cons c cs ih =>
    rw [ofClauses_cons, count_add, count_one, ih, List.map_cons, ← List.count_append,
      List.singleton_append]

theorem total_one (role : Role) : (one role).total = 1 := by cases role <;> rfl

/-- **No clause is left out of a tally.** -/
theorem total_ofClauses (cs : List RoleClause) : (ofClauses cs).total = cs.length := by
  induction cs with
  | nil => rfl
  | cons c cs ih => rw [ofClauses_cons, total_add, total_one, ih, List.length_cons, Nat.add_comm]

end Tally

/-! ## The roles of an encoding -/

theorem Consequence.length_each (role : Role) (guard : Condition) (s : FluentSet) (value : Bool) :
    (each role guard s value).length = s.size :=
  List.length_map _

theorem Consequence.map_role_each (role : Role) (guard : Condition) (s : FluentSet) (value : Bool) :
    (each role guard s value).map Consequence.role = List.replicate s.size role := by
  rw [each, List.map_map]
  exact List.map_const' ..

/-- How often each role occurs among the consequences of an action. -/
theorem Action.count_roles (a : Action) (role : Role) :
    (a.consequences.map Consequence.role).count role =
      Tally.count ⟨a.precondition.positive.size, a.precondition.negative.size,
        (a.effects.map fun e => e.effect.positive.size).sum,
        (a.effects.map fun e => e.effect.negative.size).sum⟩ role := by
  simp only [Action.consequences, Condition.consequences, ConditionalEffect.consequences,
    List.map_append, List.map_flatMap, Consequence.map_role_each, List.count_append,
    List.count_replicate, List.count_flatMap, Function.comp_def]
  cases role <;> simp [Tally.count]

variable {maxVariables : Nat} {actions : List Action} {r : Registry} {e : Encoding}

theorem roles_of_encode (h : encode maxVariables actions r = .ok e) :
    e.emitted.map RoleClause.role =
      actions.flatMap fun a => a.consequences.map Consequence.role := by
  have hroles : (consequencesOf actions).map (fun q => q.2.role) =
      e.emitted.map RoleClause.role := by
    rw [← List.forall₂_eq_eq_eq, List.forall₂_map_left_iff, List.forall₂_map_right_iff]
    exact (statedBy_of_encode h).imp fun q d hq => hq.1.symm
  have hflat : actions.zipIdx.flatMap (fun q => q.1.consequences.map Consequence.role) =
      (actions.zipIdx.map Prod.fst).flatMap fun a => a.consequences.map Consequence.role := by
    rw [List.flatMap_map]
  rw [← hroles, consequencesOf, List.map_flatMap]
  simp only [List.map_map, Function.comp_def]
  rw [hflat, List.zipIdx_map_fst]

/-- **The tally of an encoding** adds up the sizes of the sets of its actions. -/
theorem tally_of_encode (h : encode maxVariables actions r = .ok e) :
    e.tally = ⟨(actions.map fun a => a.precondition.positive.size).sum,
      (actions.map fun a => a.precondition.negative.size).sum,
      (actions.map fun a => (a.effects.map fun x => x.effect.positive.size).sum).sum,
      (actions.map fun a => (a.effects.map fun x => x.effect.negative.size).sum).sum⟩ := by
  refine Tally.ext_count fun role => ?_
  rw [counted_of_encode h, Tally.count_ofClauses, roles_of_encode h, List.count_flatMap]
  simp only [Function.comp_def, Action.count_roles]
  cases role <;> rfl

/-- **There is one clause for each consequence of each action.** -/
theorem length_clauses_of_encode (h : encode maxVariables actions r = .ok e) :
    e.clauses.length = (actions.flatMap Action.consequences).length := by
  have hroles := congrArg List.length (roles_of_encode h)
  simpa [Encoding.clauses, List.length_flatMap] using hroles

/-! ## One action after another

A list of actions may also be encoded by encoding the actions themselves, each behind the clauses
that are there.  The clauses and the counts come out the same. -/

/-- Encodes actions numbered from `i` on, each behind the clauses that are there already, and adds
up their tallies.  The first failure ends it. -/
def encodeInTurn (r : Registry) (i : Nat) (out : List Clause) (sum : Tally) :
    List Action → Except PlanFault Tally × List Clause
  | [] => (.ok sum, out)
  | a :: as =>
    match encodeAction r (.ofNat i) a out with
    | (.error fault, out) => (.error fault, out)
    | (.ok t, out) => encodeInTurn r (i + 1) out (sum.add t) as

/-- What a successful walk adds, clauses and counts, is what the actions add in turn. -/
theorem encodeInTurn_of_encodeFrom : ∀ {actions : List Action} {i : Nat}
    {done : Array RoleClause} {sum : Tally} {out : Array RoleClause × Tally},
    encodeFrom r i done sum actions = .ok out →
      ∃ new, out.1.toList = done.toList ++ new ∧ ∀ cs : List Clause,
        encodeInTurn r i cs sum actions = (.ok out.2, cs ++ new.map RoleClause.clause)
  | [], i, done, sum, out, h => by
    cases h
    refine ⟨[], (List.append_nil _).symm, fun cs => ?_⟩
    rw [encodeInTurn, List.map_nil, List.append_nil]
  | a :: as, i, done, sum, out, h => by
    rw [encodeFrom] at h
    rcases hfail : (Emission.ofAction r (.ofNat i) a).failure with _ | fault
    · simp only [hfail] at h
      obtain ⟨new, hout, hnew⟩ := encodeInTurn_of_encodeFrom h
      refine ⟨(Emission.ofAction r (.ofNat i) a).clauses ++ new, ?_, fun cs => ?_⟩
      · rw [hout, Array.toList_appendList, List.append_assoc]
      · rw [encodeInTurn, encodeAction]
        simp only [hfail]
        rw [hnew, List.append_assoc, ← List.map_append]
    · simp only [hfail] at h
      cases h

/-- **Encoding a list of actions is encoding one action after another.** -/
theorem encodeInTurn_of_encode (h : encode maxVariables actions r = .ok e) :
    encodeInTurn r 0 [] .zero actions = (.ok e.tally, e.clauses) := by
  obtain ⟨-, out, hout, rfl⟩ := encode_eq_ok_iff_encodeFrom.1 h
  obtain ⟨new, hnew, hturn⟩ := encodeInTurn_of_encodeFrom hout
  obtain rfl : out.1.toList = new := hnew
  exact hturn []

/-! ## In one statement -/

/-- **An encoding, item by item.**  It has one clause for each fluent of each set of each action, in
this order, and the sets list their fluents in increasing order.  A clause begins with the variable
of its action, denied; then come the fluents of the guard, and the fluent it is about.  The tally
has the sizes of the sets, counts every clause once, and is the same if the actions are encoded one
after another. -/
theorem encode_itemized {objects : List Object} (hr : Registry.register objects = .ok r)
    (he : encode maxVariables actions r = .ok e) :
    List.Forall₂ (fun q d => d.role = q.2.role ∧ q.2.StatedBy r (.ofNat q.1) d.clause ∧
        d.clause.lits.length = 2 + (q.2.guard.positive.size + q.2.guard.negative.size) ∧
        ∃ (v : Var) (ks : List Lit), d.clause.lits = v.neg :: ks ∧ r.numFluents < v.id ∧
          ∀ k ∈ ks, 1 ≤ k.var.id ∧ k.var.id ≤ r.numFluents)
      (consequencesOf actions) e.emitted ∧
    (∀ s : FluentSet, s.toList.Pairwise (· < ·)) ∧
    e.tally = ⟨(actions.map fun a => a.precondition.positive.size).sum,
      (actions.map fun a => a.precondition.negative.size).sum,
      (actions.map fun a => (a.effects.map fun x => x.effect.positive.size).sum).sum,
      (actions.map fun a => (a.effects.map fun x => x.effect.negative.size).sum).sum⟩ ∧
    e.tally.total = e.clauses.length ∧
    encodeInTurn r 0 [] .zero actions = (.ok e.tally, e.clauses) := by
  refine ⟨(statedBy_of_encode he).imp fun q d hq => ?_, FluentSet.increasing,
    tally_of_encode he, ?_, encodeInTurn_of_encode he⟩
  · exact ⟨hq.1, hq.2, hq.2.length_eq, hq.2.inside hr⟩
  · rw [counted_of_encode he, Tally.total_ofClauses, Encoding.clauses, List.length_map]

/-- Two actions.  The first has an effect under a guard that its other effect destroys, and one that
only deletes; the second has no precondition. -/
def relay : List Action :=
  [⟨"pass", .ofLists [.ofNat 0] [.ofNat 1],
    [⟨.ofLists [.ofNat 2] [.ofNat 1, .ofNat 0], .ofLists [.ofNat 1, .ofNat 0] [.ofNat 2]⟩,
      ⟨.ofLists [] [.ofNat 2], .ofLists [] [.ofNat 0]⟩]⟩,
    ⟨"start", .empty, [⟨.empty, .ofLists [.ofNat 0] [.ofNat 1, .ofNat 2]⟩]⟩]

theorem encode_itemized_relay : ∃ r e, Registry.register [.action (.ofNat 1), .fluent (.ofNat 2),
      .fluent (.ofNat 0), .action (.ofNat 0), .fluent (.ofNat 1)] = .ok r ∧
    encode 5 relay r = .ok e ∧ e.tally = ⟨1, 1, 3, 4⟩ ∧ e.clauses.length = 9 ∧
    encodeInTurn r 0 [] .zero relay = (.ok ⟨1, 1, 3, 4⟩, e.clauses) := by
  obtain ⟨r, e, hr, he⟩ := @exists_encode_of_register [.action (.ofNat 1), .fluent (.ofNat 2),
      .fluent (.ofNat 0), .action (.ofNat 0), .fluent (.ofNat 1)] 5 relay (by decide) (by decide)
    (by decide) (by decide)
  obtain ⟨-, -, htally, htotal, hturn⟩ := encode_itemized hr he
  have hsum : e.tally = ⟨1, 1, 3, 4⟩ := htally.trans (by decide)
  rw [hsum] at htotal hturn
  exact ⟨r, e, hr, he, hsum, htotal.symm, hturn⟩

end SnapshotPlan
