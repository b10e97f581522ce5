import SnapshotPlan.Proofs.Encoding.Clauses
import SnapshotPlan.Proofs.Encoding.Numbering

/-!
# The shape of the clauses

Every clause of an encoding says what being chosen implies for one action.  It begins with the
action, denied; then come the ways in which a guard may fail; and it ends with one fluent that has a
value if the guard does not fail.

## What is here

* `Consequence`, `Action.consequences` — what choosing an action implies, fluent by fluent.
* `clauses_eq_map_consequences` — **the clauses of an action are those of its consequences.**
* `Consequence.StatedBy` — what the clause of a consequence looks like.  By
  `statedBy_of_numberedAs`, numbering makes such clauses, and by `StatedBy.inside` they begin with a
  variable of an action and go on with those of fluents.
* `two_le_length_of_mem_clauses`, `id_le_of_mem_clauses` — a numbered clause has at least two
  literals, over the variables of the registry.
-/

set_option autoImplicit false

namespace SnapshotPlan

/-! ## Consequences -/

/-- What choosing an action implies for one fluent: where the guard holds, it has the value. -/
structure Consequence where
  role : Role
  guard : Condition
  fluent : FluentId
  value : Bool

namespace Consequence

/-- The same for every fluent of a set, in increasing order. -/
def each (role : Role) (guard : Condition) (s : FluentSet) (value : Bool) : List Consequence :=
  s.toList.map fun f => ⟨role, guard, f, value⟩

/-- The clause over objects: the action is denied, or the guard fails, or the fluent has the
value. -/
def clause (id : ActionId) (q : Consequence) : ObjectClause :=
  ⟨q.role, ⟨.action id, false⟩ :: (Implication.violations q.guard ++ [⟨.fluent q.fluent, q.value⟩])⟩

end Consequence

/-- Each fluent that the effect adds becomes true under the guard, and each that it deletes
false. -/
def ConditionalEffect.consequences (e : ConditionalEffect) : List Consequence :=
  Consequence.each .positiveEffect e.guard e.effect.positive true ++
    Consequence.each .negativeEffect e.guard e.effect.negative false

/-- The precondition holds, whatever else does. -/
def Condition.consequences (c : Condition) : List Consequence :=
  Consequence.each .positivePrecondition .empty c.positive true ++
    Consequence.each .negativePrecondition .empty c.negative false

/-- All that choosing the action implies: its precondition, then each effect in turn. -/
def Action.consequences (a : Action) : List Consequence :=
  a.precondition.consequences ++ a.effects.flatMap ConditionalEffect.consequences

/-- The consequences of each action of a list, with the action's number. -/
def consequencesOf (actions : List Action) : List (Nat × Consequence) :=
  actions.zipIdx.flatMap fun q => q.1.consequences.map fun c => (q.2, c)

theorem Implication.clauses_uniform (role : Role) (id : ActionId) (guard : Condition)
    (s : FluentSet) (value : Bool) :
    clauses ⟨role, ⟨.action id, false⟩ :: violations guard, uniform s value⟩ =
      (Consequence.each role guard s value).map (Consequence.clause id) := by
  rw [clauses, uniform, Consequence.each, List.map_map, List.map_map]
  rfl

/-- **The clauses of an action are those of its consequences.** -/
theorem Action.clauses_eq_map_consequences (id : ActionId) (a : Action) :
    a.clauses id = a.consequences.map (Consequence.clause id) := by
  have heff : ∀ e : ConditionalEffect, (Implication.ofEffect id e).flatMap Implication.clauses =
      e.consequences.map (Consequence.clause id) := fun e => by
    simp only [Implication.ofEffect, List.flatMap_cons, List.flatMap_nil, List.append_nil,
      Implication.clauses_uniform, ConditionalEffect.consequences, List.map_append]
  -- A precondition is not guarded, and the empty guard has no way to fail.
  have hpre : ∀ (role : Role) (s : FluentSet) (value : Bool),
      Implication.clauses ⟨role, [⟨.action id, false⟩], Implication.uniform s value⟩ =
        (Consequence.each role .empty s value).map (Consequence.clause id) :=
    fun role s value => Implication.clauses_uniform role id .empty s value
  rw [clauses, Implication.ofAction, List.flatMap_cons, List.flatMap_cons, hpre, hpre,
    List.flatMap_assoc, consequences, Condition.consequences, List.map_append, List.map_append,
    List.map_flatMap, List.append_assoc]
  simp only [heff]

theorem objectClauses_eq_map_consequences (actions : List Action) :
    objectClauses actions = (consequencesOf actions).map fun q => q.2.clause (.ofNat q.1) := by
  simp only [objectClauses, objectClausesFrom, consequencesOf, List.map_flatMap, List.map_map,
    Action.clauses_eq_map_consequences]
  rfl

/-! ## What the clause of a consequence looks like

Numbering keeps the places of literals, so the shape of an object clause is that of the numbered
one.  What holds of all clauses of an encoding follows from this one shape. -/

/-- The literal is that of the fluent with the value. -/
def FluentId.NumberedAs (r : Registry) (value : Bool) (f : FluentId) (k : Lit) : Prop :=
  r.fluentVar f = .ok k.var ∧ k.positive = value

/-- The clause says of an action what the consequence does.  It has the action, denied; each fluent
that the guard asks for, denied; each fluent that the guard forbids, asserted; and the fluent of the
consequence with its value. -/
inductive Consequence.StatedBy (r : Registry) (id : ActionId) (q : Consequence) : Clause → Prop
  | intro {v : Var} {missing present : List Lit} {l : Lit} (action : r.actionVar id = .ok v)
      (asked : List.Forall₂ (FluentId.NumberedAs r false) q.guard.positive.toList missing)
      (forbidden : List.Forall₂ (FluentId.NumberedAs r true) q.guard.negative.toList present)
      (target : q.fluent.NumberedAs r q.value l) :
      StatedBy r id q ⟨v.neg :: (missing ++ present ++ [l])⟩

namespace Consequence

variable {r : Registry} {id : ActionId} {q : Consequence}

theorem forall₂_of_uniform {s : FluentSet} {value : Bool} {ks : List Lit}
    (h : List.Forall₂ (ObjectLit.NumberedAs r) (Implication.uniform s value) ks) :
    List.Forall₂ (FluentId.NumberedAs r value) s.toList ks := by
  rw [Implication.uniform, List.forall₂_map_left_iff] at h
  exact h

/-- **Numbering makes clauses of this shape.** -/
theorem statedBy_of_numberedAs {d : RoleClause} (h : (q.clause id).NumberedAs r d) :
    d.role = q.role ∧ q.StatedBy r id d.clause := by
  obtain ⟨role, ⟨lits⟩⟩ := d
  obtain ⟨hrole, hlits⟩ := h
  refine ⟨hrole, ?_⟩
  obtain ⟨⟨v, sign⟩, rest, ⟨hv, hsign⟩, hrest, rfl⟩ := List.forall₂_cons_left_iff.1 hlits
  obtain ⟨guard, last, rfl, hguard, hlast⟩ := exists_append_of_forall₂ hrest
  obtain ⟨missing, present, rfl, hmissing, hpresent⟩ := exists_append_of_forall₂ hguard
  obtain ⟨l, none, hl, hnone, rfl⟩ := List.forall₂_cons_left_iff.1 hlast
  cases hnone
  obtain rfl : sign = false := hsign
  exact .intro hv (forall₂_of_uniform hmissing) (forall₂_of_uniform hpresent) hl

variable {c : Clause}

theorem StatedBy.length_eq (h : q.StatedBy r id c) :
    c.lits.length = 2 + (q.guard.positive.size + q.guard.negative.size) := by
  obtain ⟨-, asked, forbidden, -⟩ := h
  simp only [List.length_cons, List.length_append, List.length_nil, ← asked.length_eq,
    ← forbidden.length_eq]
  show q.guard.positive.size + q.guard.negative.size + 1 + 1 = _
  omega

/-- **The variable of an action comes first, and only variables of fluents after it.** -/
theorem StatedBy.inside {objects : List Object} (hr : Registry.register objects = .ok r)
    (h : q.StatedBy r id c) : ∃ (v : Var) (ks : List Lit), c.lits = v.neg :: ks ∧
      r.numFluents < v.id ∧ ∀ k ∈ ks, 1 ≤ k.var.id ∧ k.var.id ≤ r.numFluents := by
  cases h with | @intro v missing present l action asked forbidden target => ?_
  have hnum := Registry.numbers_of_register hr
  have hfluent : ∀ {value : Bool} {f : FluentId} {k : Lit}, f.NumberedAs r value k →
      1 ≤ k.var.id ∧ k.var.id ≤ r.numFluents := fun {_ f k} hk =>
    ⟨k.var.id_pos, hnum.fluent_le f k.var hk.1⟩
  refine ⟨_, _, rfl, hnum.lt_action _ _ action, fun k hk => ?_⟩
  rw [List.mem_append, List.mem_append, List.mem_singleton] at hk
  rcases hk with (hk | hk) | rfl
  · obtain ⟨f, -, hf⟩ := exists_left_of_forall₂ asked hk
    exact hfluent hf
  · obtain ⟨f, -, hf⟩ := exists_left_of_forall₂ forbidden hk
    exact hfluent hf
  · exact hfluent target

end Consequence

variable {maxVariables : Nat} {actions : List Action} {r : Registry} {e : Encoding} {c : Clause}

/-- A clause of an encoding comes from a clause over objects. -/
theorem exists_numberedAs_of_mem_clauses (h : encode maxVariables actions r = .ok e)
    (hc : c ∈ e.clauses) : ∃ d ∈ objectClauses actions,
      List.Forall₂ (ObjectLit.NumberedAs r) d.lits c.lits := by
  obtain ⟨k, hk, rfl⟩ := List.mem_map.1 hc
  obtain ⟨d, hd, hdk⟩ := exists_left_of_forall₂ (numberedAs_of_encode h) hk
  exact ⟨d, hd, hdk.2⟩

/-- **An encoding states the consequences of its actions**, one clause for each and in order. -/
theorem statedBy_of_encode (h : encode maxVariables actions r = .ok e) :
    List.Forall₂ (fun q d => d.role = q.2.role ∧ q.2.StatedBy r (.ofNat q.1) d.clause)
      (consequencesOf actions) e.emitted := by
  have hnum := numberedAs_of_encode h
  rw [objectClauses_eq_map_consequences, List.forall₂_map_left_iff] at hnum
  exact hnum.imp fun q d => Consequence.statedBy_of_numberedAs

theorem two_le_length_of_mem_clauses (h : encode maxVariables actions r = .ok e)
    (hc : c ∈ e.clauses) : 2 ≤ c.lits.length := by
  obtain ⟨d, hd, rfl⟩ := List.mem_map.1 hc
  obtain ⟨q, -, -, hq⟩ := exists_left_of_forall₂ (statedBy_of_encode h) hd
  rw [hq.length_eq]
  exact Nat.le_add_right ..

/-- **Every variable of an encoding is one of the registry.** -/
theorem id_le_of_mem_clauses (h : encode maxVariables actions r = .ok e) (hc : c ∈ e.clauses)
    {l : Lit} (hl : l ∈ c.lits) : l.var.id ≤ r.size := by
  obtain ⟨d, -, hnum⟩ := exists_numberedAs_of_mem_clauses h hc
  obtain ⟨k, -, hkl⟩ := exists_left_of_forall₂ hnum hl
  exact Registry.id_le_of_varOf hkl.1

end SnapshotPlan
