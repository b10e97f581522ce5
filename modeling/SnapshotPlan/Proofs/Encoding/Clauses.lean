import SnapshotPlan.Encoding.Emission
import SnapshotPlan.Proofs.Traversal

/-!
# The clauses of an encoding, before and after numbering

The encoding of a list of actions is settled before any object has a variable: it is the list
`objectClauses` of clauses over objects.  All that `encode` adds is the numbering.

## What is here

* `ObjectClause`, `Implication.clauses`, `objectClauses` — the clauses over objects.
* `ObjectClause.NumberedAs` — an object clause and the clause that a registry makes of it.
* `Tally.ofClauses`, `Emission.Counted` — a list of clauses counted by role, and an emission whose
  tally says what such a count would say.
* `numberedAs_of_encode` — **a successful encoding is `objectClauses`, numbered clause by clause**;
  `counted_of_encode`: its tally is that of its clauses.
* `encode_eq_ok_iff` — an encoding succeeds iff the variables suffice and every object mentioned
  is registered.
-/

set_option autoImplicit false

namespace SnapshotPlan

/-- The object has a variable. -/
def Registry.Knows (r : Registry) (o : Object) : Prop := ∃ v, r.varOf o = .ok v

/-! ## Clauses over objects -/

/-- A disjunction of literals over objects, and the part of an action that its last one comes
from. -/
structure ObjectClause where
  role : Role
  lits : List ObjectLit

namespace Implication

/-- One clause for each target: some escape holds, or the target does. -/
def clauses (i : Implication) : List ObjectClause :=
  i.targets.map fun t => ⟨i.role, i.escapes ++ [t]⟩

/-- Every object of the implication has a variable. -/
def Known (r : Registry) (i : Implication) : Prop :=
  ∀ l ∈ i.escapes ++ i.targets, r.Knows l.object

end Implication

/-- The clauses over objects that an action implies. -/
def Action.clauses (id : ActionId) (a : Action) : List ObjectClause :=
  (Implication.ofAction id a).flatMap Implication.clauses

/-- The clauses over objects that a list of actions implies, the first of which has number `i`. -/
def objectClausesFrom (i : Nat) (actions : List Action) : List ObjectClause :=
  (actions.zipIdx i).flatMap fun q => q.1.clauses (.ofNat q.2)

/-- The clauses over objects that a list of actions implies. -/
def objectClauses (actions : List Action) : List ObjectClause := objectClausesFrom 0 actions

/-- The registry makes the literal `k` of the object literal `l`. -/
def ObjectLit.NumberedAs (r : Registry) (l : ObjectLit) (k : Lit) : Prop :=
  r.varOf l.object = .ok k.var ∧ k.positive = l.value

/-- The registry makes the clause `d` of the object clause `c`, literal by literal. -/
def ObjectClause.NumberedAs (r : Registry) (c : ObjectClause) (d : RoleClause) : Prop :=
  d.role = c.role ∧ List.Forall₂ (ObjectLit.NumberedAs r) c.lits d.clause.lits

/-- The number of clauses of each role in a list. -/
def Tally.ofClauses (cs : List RoleClause) : Tally :=
  cs.foldr (fun c t => (Tally.one c.role).add t) .zero

theorem Tally.ofClauses_cons (c : RoleClause) (cs : List RoleClause) :
    ofClauses (c :: cs) = (one c.role).add (ofClauses cs) :=
  rfl

theorem Tally.ofClauses_append (cs ds : List RoleClause) :
    ofClauses (cs ++ ds) = (ofClauses cs).add (ofClauses ds) := by
  induction cs with
  | nil => exact (zero_add _).symm
  | cons c cs ih => rw [List.cons_append, ofClauses_cons, ofClauses_cons, ih, add_assoc]

namespace Emission

variable {r : Registry}

theorem number_eq_ok_iff {l : ObjectLit} {k : Lit} :
    number r l = .ok k ↔ l.NumberedAs r k := by
  rw [number, ObjectLit.NumberedAs]
  rcases r.varOf l.object with fault | v
  · exact iff_of_false (fun h => nomatch h) fun h => nomatch h.1
  · refine ⟨fun h => ?_, ?_⟩
    · cases h
      exact ⟨rfl, rfl⟩
    · rintro ⟨hv, hk⟩
      cases hv
      exact congrArg Except.ok (Lit.ext rfl hk.symm)

theorem exists_number_iff {l : ObjectLit} : (∃ k, number r l = .ok k) ↔ r.Knows l.object := by
  simp only [number_eq_ok_iff]
  constructor
  · rintro ⟨k, hk⟩
    exact ⟨k.var, hk.1⟩
  · rintro ⟨v, hv⟩
    exact ⟨⟨v, l.value⟩, hv, rfl⟩

theorem exists_mapM_number_iff {ls : List ObjectLit} :
    (∃ ks, ls.mapM (number r) = .ok ks) ↔ ∀ l ∈ ls, r.Knows l.object := by
  simp only [mapM_eq_ok_iff]
  induction ls with
  | nil => exact iff_of_true ⟨[], .nil⟩ fun l hl => nomatch hl
  | cons l ls ih =>
    rw [List.forall_mem_cons, ← ih, ← exists_number_iff]
    constructor
    · rintro ⟨_, _ | ⟨hk, hks⟩⟩
      exact ⟨⟨_, hk⟩, _, hks⟩
    · rintro ⟨⟨k, hk⟩, ks, hks⟩
      exact ⟨k :: ks, .cons hk hks⟩

/-! ## Emitting an implication -/

theorem failure_ofTargets_eq_none_iff {role : Role} {es : List Lit} {ts : List ObjectLit} :
    (ofTargets r role es ts).failure = none ↔ ∀ t ∈ ts, r.Knows t.object := by
  induction ts with
  | nil => exact iff_of_true rfl fun t ht => nomatch ht
  | cons t ts ih =>
    rw [List.forall_mem_cons, ← ih, ← exists_number_iff, ofTargets]
    rcases number r t with fault | k
    · exact iff_of_false (fun h => nomatch h) fun h => nomatch h.1.choose_spec
    · exact (and_iff_right ⟨k, rfl⟩).symm

/-- The escapes are numbered already; numbering the target completes the clause. -/
theorem numberedAs_ofTargets {role : Role} {escapes : List ObjectLit} {es : List Lit}
    (hes : List.Forall₂ (ObjectLit.NumberedAs r) escapes es) {ts : List ObjectLit}
    (h : (ofTargets r role es ts).failure = none) :
    List.Forall₂ (ObjectClause.NumberedAs r) (ts.map fun t => ⟨role, escapes ++ [t]⟩)
      (ofTargets r role es ts).clauses := by
  induction ts with
  | nil => exact .nil
  | cons t ts ih =>
    rw [ofTargets] at h ⊢
    rcases hk : number r t with fault | k
    · rw [hk] at h
      cases h
    · rw [hk] at h
      refine .cons ⟨rfl, ?_⟩ (ih h)
      exact List.rel_append hes (.cons (number_eq_ok_iff.1 hk) .nil)

theorem failure_ofImplication_eq_none_iff {i : Implication} :
    (ofImplication r i).failure = none ↔ i.Known r := by
  rw [Implication.Known, List.forall_mem_append, ← exists_mapM_number_iff, ofImplication]
  rcases i.escapes.mapM (number r) with fault | es
  · exact iff_of_false (fun h => nomatch h) fun h => nomatch h.1.choose_spec
  · rw [failure_ofTargets_eq_none_iff]
    exact (and_iff_right ⟨es, rfl⟩).symm

theorem numberedAs_ofImplication {i : Implication} (h : (ofImplication r i).failure = none) :
    List.Forall₂ (ObjectClause.NumberedAs r) i.clauses (ofImplication r i).clauses := by
  rw [ofImplication] at h ⊢
  rcases hes : i.escapes.mapM (number r) with fault | es
  · rw [hes] at h
    cases h
  · rw [hes] at h
    have hnum := (mapM_eq_ok_iff.1 hes).imp fun l k => number_eq_ok_iff.1
    exact numberedAs_ofTargets hnum h

/-! ## Emitting several in turn -/

theorem failure_ofImplications_eq_none_iff {is : List Implication} :
    (ofImplications r is).failure = none ↔ ∀ i ∈ is, i.Known r := by
  induction is with
  | nil => exact iff_of_true rfl fun i hi => nomatch hi
  | cons i is ih =>
    rw [List.forall_mem_cons, ← ih, ← failure_ofImplication_eq_none_iff, ofImplications]
    rcases hfirst : (ofImplication r i).failure with _ | fault
    · simp
    · simp [hfirst]

theorem numberedAs_ofImplications {is : List Implication}
    (h : (ofImplications r is).failure = none) :
    List.Forall₂ (ObjectClause.NumberedAs r) (is.flatMap Implication.clauses)
      (ofImplications r is).clauses := by
  induction is with
  | nil => exact .nil
  | cons i is ih =>
    obtain ⟨hi, his⟩ := List.forall_mem_cons.1 (failure_ofImplications_eq_none_iff.1 h)
    have hfirst := failure_ofImplication_eq_none_iff.2 hi
    have hrest := failure_ofImplications_eq_none_iff.2 his
    rw [ofImplications]
    simp only [hfirst, List.flatMap_cons]
    exact List.rel_append (numberedAs_ofImplication hfirst) (ih hrest)

/-! ## What is counted

The tally is carried along while clauses are emitted.  Nothing, one clause more, and one emission
after another keep it equal to what counting the clauses would give. -/

/-- The tally is that of the clauses. -/
def Counted (e : Emission) : Prop := e.tally = .ofClauses e.clauses

theorem Counted.cons {e : Emission} (h : e.Counted) (c : RoleClause) :
    (Emission.cons c e).Counted := by
  rw [Counted, Emission.cons, h, Tally.ofClauses_cons]

theorem Counted.append {e e' : Emission} (h : e.Counted) (h' : e'.Counted) :
    (e.append e').Counted := by
  rw [Counted, Emission.append, h, h', Tally.ofClauses_append]

theorem counted_ofTargets (role : Role) (es : List Lit) (ts : List ObjectLit) :
    (ofTargets r role es ts).Counted := by
  induction ts with
  | nil => rfl
  | cons t ts ih =>
    rw [ofTargets]
    rcases number r t with fault | k
    · rfl
    · exact ih.cons _

theorem counted_ofImplication (i : Implication) : (ofImplication r i).Counted := by
  rw [ofImplication]
  rcases i.escapes.mapM (number r) with fault | es
  · rfl
  · exact counted_ofTargets ..

theorem counted_ofImplications (is : List Implication) : (ofImplications r is).Counted := by
  induction is with
  | nil => rfl
  | cons i is ih =>
    have hfirst := counted_ofImplication (r := r) i
    rw [ofImplications]
    rcases (ofImplication r i).failure with _ | fault
    · exact hfirst.append ih
    · exact hfirst

/-- **Emitting an action counts every clause once, whether or not it fails.** -/
theorem counted_ofAction (id : ActionId) (a : Action) : (ofAction r id a).Counted :=
  counted_ofImplications _

/-! ## Which objects an action needs

An implication needs its escapes and its targets.  All implications of an action together need
the action and what it mentions, however often the guard is repeated. -/

theorem knows_uniform_iff {s : FluentSet} {value : Bool} :
    (∀ l ∈ Implication.uniform s value, r.Knows l.object) ↔
      ∀ f ∈ s.toList, r.Knows (.fluent f) := by
  rw [Implication.uniform, List.forall_mem_map]

theorem known_ofEffect_iff {id : ActionId} {e : ConditionalEffect} :
    (∀ i ∈ Implication.ofEffect id e, i.Known r) ↔
      r.Knows (.action id) ∧ ∀ f ∈ e.mentions, r.Knows (.fluent f) := by
  simp only [Implication.ofEffect, Implication.Known, Implication.violations,
    ConditionalEffect.mentions, Condition.mentions, Effect.mentions, List.forall_mem_cons,
    List.forall_mem_append, knows_uniform_iff]
  tauto

/-- The objects of an action's implications are the action and the fluents it mentions. -/
theorem known_ofAction_iff {id : ActionId} {a : Action} :
    (∀ i ∈ Implication.ofAction id a, i.Known r) ↔
      r.Knows (.action id) ∧ ∀ f ∈ a.mentions, r.Knows (.fluent f) := by
  have hpre : ∀ (role : Role) (s : FluentSet) (value : Bool),
      Implication.Known r ⟨role, [⟨.action id, false⟩], Implication.uniform s value⟩ ↔
        r.Knows (.action id) ∧ ∀ f ∈ s.toList, r.Knows (.fluent f) := fun role s value => by
    rw [Implication.Known, List.forall_mem_append, List.forall_mem_singleton, knows_uniform_iff]
  have heff : (∀ i ∈ a.effects.flatMap (Implication.ofEffect id), i.Known r) ↔
      ∀ e ∈ a.effects, r.Knows (.action id) ∧ ∀ f ∈ e.mentions, r.Knows (.fluent f) := by
    simp only [List.forall_mem_flatMap, known_ofEffect_iff]
  rw [Implication.ofAction, List.forall_mem_cons, List.forall_mem_cons, hpre, hpre, heff,
    Action.mentions, Condition.mentions, List.forall_mem_append, List.forall_mem_append,
    List.forall_mem_flatMap]
  constructor
  · rintro ⟨⟨hid, hpos⟩, ⟨-, hneg⟩, he⟩
    exact ⟨hid, ⟨hpos, hneg⟩, fun e hmem => (he e hmem).2⟩
  · rintro ⟨hid, ⟨hpos, hneg⟩, he⟩
    exact ⟨⟨hid, hpos⟩, ⟨hid, hneg⟩, fun e hmem => ⟨hid, he e hmem⟩⟩

end Emission

/-! ## Encoding a list of actions

Clauses and counts are carried along from action to action, so the inductions are on the actions
with both generalised, and so is the number of the first action. -/

/-- Every action of a list, the first of which has number `i`, and every fluent that one of them
mentions has a variable. -/
def Registry.KnowsAll (r : Registry) (i : Nat) (actions : List Action) : Prop :=
  ∀ q ∈ actions.zipIdx i, r.Knows (.action (.ofNat q.2)) ∧ ∀ f ∈ q.1.mentions, r.Knows (.fluent f)

theorem encodeFrom_eq_ok_iff {r : Registry} {actions : List Action} : ∀ {i : Nat}
    {done : Array RoleClause} {sum : Tally},
    (∃ out, encodeFrom r i done sum actions = .ok out) ↔ r.KnowsAll i actions := by
  induction actions with
  | nil => exact fun {i done sum} => iff_of_true ⟨(done, sum), rfl⟩ fun q hq => nomatch hq
  | cons a as ih =>
    intro i done sum
    rw [Registry.KnowsAll, List.zipIdx_cons, List.forall_mem_cons, encodeFrom,
      ← Emission.known_ofAction_iff, ← Emission.failure_ofImplications_eq_none_iff,
      ← Registry.KnowsAll]
    rw [← Emission.ofAction]
    rcases (Emission.ofAction r (.ofNat i) a).failure with _ | fault
    · exact ih.trans (and_iff_right rfl).symm
    · exact iff_of_false (fun h => nomatch h.choose_spec) fun h => nomatch h.1

/-- The clauses of the actions still to come are added at the end of those at hand, and what is
counted of them to the sum. -/
theorem numberedAs_of_encodeFrom {r : Registry} {actions : List Action} : ∀ {i : Nat}
    {done : Array RoleClause} {sum : Tally} {out : Array RoleClause × Tally},
    encodeFrom r i done sum actions = .ok out →
      ∃ new, out.1.toList = done.toList ++ new ∧ out.2 = sum.add (.ofClauses new) ∧
        List.Forall₂ (ObjectClause.NumberedAs r) (objectClausesFrom i actions) new := by
  induction actions with
  | nil =>
    intro i done sum out h
    cases h
    exact ⟨[], (List.append_nil _).symm, (Tally.add_zero _).symm, .nil⟩
  | cons a as ih =>
    intro i done sum out h
    rw [encodeFrom] at h
    rcases hfail : (Emission.ofAction r (.ofNat i) a).failure with _ | fault
    · simp only [hfail] at h
      obtain ⟨new, hout, hsum, hnew⟩ := ih h
      refine ⟨(Emission.ofAction r (.ofNat i) a).clauses ++ new, ?_, ?_, ?_⟩
      · rw [hout, Array.toList_appendList, List.append_assoc]
      · rw [hsum, Emission.counted_ofAction, Tally.add_assoc, Tally.ofClauses_append]
      · rw [objectClausesFrom, List.zipIdx_cons, List.flatMap_cons]
        exact List.rel_append (Emission.numberedAs_ofImplications hfail) hnew
    · simp only [hfail] at h
      cases h

theorem encode_of_size_lt {maxVariables : Nat} {actions : List Action} {r : Registry}
    (h : maxVariables < r.size) :
    encode maxVariables actions r = .error (.overflow r.size maxVariables) := by
  rw [encode, if_pos h]

/-- The variables are looked at before any action is. -/
theorem encode_eq_ok_iff_encodeFrom {maxVariables : Nat} {actions : List Action} {r : Registry}
    {e : Encoding} : encode maxVariables actions r = .ok e ↔ r.size ≤ maxVariables ∧
      ∃ out, encodeFrom r 0 #[] .zero actions = .ok out ∧ ⟨out.1.toList, out.2⟩ = e := by
  rcases Nat.lt_or_ge maxVariables r.size with hlt | hge
  · rw [encode_of_size_lt hlt]
    exact iff_of_false (fun h => nomatch h) fun h => Nat.not_le.2 hlt h.1
  · rw [encode, if_neg (Nat.not_lt.2 hge), and_iff_right hge]
    cases encodeFrom r 0 #[] .zero actions <;> simp [Except.map]

/-- **An encoding succeeds iff the variables suffice and every object concerned has one.** -/
theorem encode_eq_ok_iff {maxVariables : Nat} {actions : List Action} {r : Registry} :
    (∃ e, encode maxVariables actions r = .ok e) ↔
      r.size ≤ maxVariables ∧ r.KnowsAll 0 actions := by
  rw [← @encodeFrom_eq_ok_iff r actions 0 #[] .zero]
  constructor
  · rintro ⟨e, he⟩
    obtain ⟨hle, out, hout, -⟩ := encode_eq_ok_iff_encodeFrom.1 he
    exact ⟨hle, out, hout⟩
  · rintro ⟨hle, out, hout⟩
    exact ⟨_, encode_eq_ok_iff_encodeFrom.2 ⟨hle, out, hout, rfl⟩⟩

variable {maxVariables : Nat} {actions : List Action} {r : Registry} {e : Encoding}

/-- **A successful encoding is the clauses over objects, numbered one by one.** -/
theorem numberedAs_of_encode (h : encode maxVariables actions r = .ok e) :
    List.Forall₂ (ObjectClause.NumberedAs r) (objectClauses actions) e.emitted := by
  obtain ⟨-, out, hout, rfl⟩ := encode_eq_ok_iff_encodeFrom.1 h
  obtain ⟨new, hnew, -, hnum⟩ := numberedAs_of_encodeFrom hout
  show List.Forall₂ (ObjectClause.NumberedAs r) (objectClauses actions) out.1.toList
  rw [hnew]
  exact hnum

/-- **The counts that are added up from action to action are those of all clauses.** -/
theorem counted_of_encode (h : encode maxVariables actions r = .ok e) :
    e.tally = .ofClauses e.emitted := by
  obtain ⟨-, out, hout, rfl⟩ := encode_eq_ok_iff_encodeFrom.1 h
  obtain ⟨new, hnew, hsum, -⟩ := numberedAs_of_encodeFrom hout
  obtain rfl : out.1.toList = new := hnew
  exact hsum.trans (Tally.zero_add _)

end SnapshotPlan
