import SnapshotPlan.Proofs.Encoding.Meaning
import SnapshotPlan.Proofs.Encoding.Shape

/-!
# Where encoding an action stops

An action is encoded by going through its objects: itself, the fluents of its precondition, and for
each effect those of the guard and then those of the effect.  This is the order in which
`Action.mentions` lists them, although emitting goes through implications, which name the action
and the guard over and over.  The first object without a variable ends the walk, and what is
emitted by then is what the objects before it complete.

## What is here

* `Place`, `Action.places` — the objects of an action in order, each with the clause that it
  completes.
* `Emission.Follows` — an emission goes through places in order and stops where an object is
  unknown.  `follows_ofAction`: emitting an action goes through its places.
* `Follows.of_known`, `Follows.of_unknown` — **what comes of it**: all clauses of the places, or
  those before the first unknown object.
* `encodeAction_stops` — **what encoding an action adds and returns**, and which failure of a list
  of actions is reported.
-/

set_option autoImplicit false

namespace SnapshotPlan

/-! ## Places

There are two ways to list them.  An action looks its objects up in the order of its mentions,
and that is what is claimed in the end.  An implication brings up its escapes first, so the
action and the guard come again with every implication, and that is what emitting does. -/

/-- An object to look up, and the clause that it completes, if it does. -/
structure Place where
  object : Object
  clause? : Option ObjectClause

namespace Place

/-- An object of a premise completes nothing. -/
def premise (o : Object) : Place := ⟨o, none⟩

/-- The fluent of a consequence completes the clause of the consequence. -/
def ofConsequence (id : ActionId) (q : Consequence) : Place :=
  ⟨.fluent q.fluent, some (q.clause id)⟩

end Place

/-- The guard, then what the effect makes true, then what it makes false. -/
def ConditionalEffect.places (id : ActionId) (e : ConditionalEffect) : List Place :=
  (e.guard.mentions.map Object.fluent).map .premise ++ e.consequences.map (.ofConsequence id)

/-- The action, its precondition, then each effect in turn. -/
def Action.places (id : ActionId) (a : Action) : List Place :=
  .premise (.action id) :: a.precondition.consequences.map (.ofConsequence id) ++
    a.effects.flatMap (ConditionalEffect.places id)

/-- The escapes, then the targets, each of which completes a clause. -/
def Implication.places (i : Implication) : List Place :=
  (i.escapes.map ObjectLit.object).map .premise ++
    i.targets.map fun t => ⟨t.object, some ⟨i.role, i.escapes ++ [t]⟩⟩

/-- **The objects of the places are the action and what it mentions**, in this order. -/
theorem Action.map_object_places (id : ActionId) (a : Action) :
    (a.places id).map Place.object = .action id :: a.mentions.map .fluent := by
  have heach : ∀ (role : Role) (guard : Condition) (s : FluentSet) (value : Bool),
      ((Consequence.each role guard s value).map (Place.ofConsequence id)).map Place.object =
        s.toList.map .fluent := fun role guard s value => by
    rw [Consequence.each, List.map_map, List.map_map]
    rfl
  have hguard : ∀ os : List Object, (os.map Place.premise).map Place.object = os := fun os => by
    rw [List.map_map]
    exact List.map_id os
  simp only [places, ConditionalEffect.places, Condition.consequences,
    ConditionalEffect.consequences, mentions, ConditionalEffect.mentions, Condition.mentions,
    Effect.mentions, List.map_append, List.map_flatMap, List.map_cons, List.cons_append, heach,
    hguard]
  rfl

/-! ## Going through places

`Follows` is emitting, put in terms of places.  A premise that was seen before cannot be where
the walk stops, so it may be dropped; this is how the one list is turned into the other. -/

namespace Emission

variable {r : Registry} {ps qs : List Place} {e : Emission}

/-- The emission goes through the places in order.  It emits the clause of each place that completes
one, and it stops at the first object without a variable. -/
inductive Follows (r : Registry) : List Place → Emission → Prop
  | done : Follows r [] nothing
  | stuck {p : Place} {ps : List Place} (unknown : ¬ r.Knows p.object) :
      Follows r (p :: ps) (fail (.unregistered p.object))
  | pass {p : Place} {ps : List Place} {e : Emission} (known : r.Knows p.object)
      (silent : p.clause? = none) (rest : Follows r ps e) : Follows r (p :: ps) e
  | emit {p : Place} {ps : List Place} {c : ObjectClause} {d : RoleClause} {e : Emission}
      (known : r.Knows p.object) (complete : p.clause? = some c) (numbered : c.NumberedAs r d)
      (rest : Follows r ps e) : Follows r (p :: ps) (cons d e)

/-- After places that go well come others. -/
theorem Follows.append (h : Follows r ps e) (hok : e.failure = none) {e' : Emission}
    (h' : Follows r qs e') : Follows r (ps ++ qs) (e.append e') := by
  induction h with
  | done => rwa [List.nil_append, nothing_append]
  | stuck => cases hok
  | pass known silent _ ih => exact .pass known silent (ih hok)
  | emit known complete numbered _ ih =>
    rw [cons_append]
    exact .emit known complete numbered (ih hok)

/-- After a failure no place counts. -/
theorem Follows.append_of_failure (h : Follows r ps e) {fault : PlanFault}
    (hfail : e.failure = some fault) (qs : List Place) : Follows r (ps ++ qs) e := by
  induction h with
  | done => cases hfail
  | stuck unknown => exact .stuck unknown
  | pass known silent _ ih => exact .pass known silent (ih hfail)
  | emit known complete numbered _ ih => exact .emit known complete numbered (ih hfail)

/-- Premises that are known lead on. -/
theorem Follows.premises {os : List Object} (known : ∀ o ∈ os, r.Knows o) (h : Follows r ps e) :
    Follows r (os.map .premise ++ ps) e := by
  induction os with
  | nil => exact h
  | cons o os ih =>
    obtain ⟨ho, hos⟩ := List.forall_mem_cons.1 known
    exact .pass ho rfl (ih hos)

/-- **A premise that has been seen before may be left out**: it is known when its turn comes. -/
theorem Follows.drop_premises {os : List Object}
    (h : Follows r (ps ++ (os.map .premise ++ qs)) e)
    (seen : ∀ o ∈ os, r.Knows o ∨ o ∈ ps.map Place.object) : Follows r (ps ++ qs) e := by
  induction ps generalizing e with
  | nil =>
    induction os with
    | nil => exact h
    | cons o os ih =>
      obtain ⟨ho, hos⟩ := List.forall_mem_cons.1 seen
      have hknown : r.Knows o := ho.resolve_right (List.not_mem_nil)
      cases h with
      | stuck unknown => exact absurd hknown unknown
      | pass _ _ rest => exact ih rest hos
      | emit _ complete _ _ => cases complete
  | cons p ps ih =>
    -- Once `p` is known, it counts among the known objects for what comes later.
    have hseen : r.Knows p.object → ∀ o ∈ os, r.Knows o ∨ o ∈ ps.map Place.object :=
      fun known o ho => (seen o ho).elim .inl fun hmem => by
        rcases List.mem_cons.1 hmem with rfl | hmem
        · exact .inl known
        · exact .inr hmem
    cases h with
    | stuck unknown => exact .stuck unknown
    | pass known silent rest => exact .pass known silent (ih rest (hseen known))
    | emit known complete numbered rest =>
      exact .emit known complete numbered (ih rest (hseen known))

/-! ## Emitting goes through places -/

theorem number_eq_error_iff {l : ObjectLit} {fault : PlanFault} :
    number r l = .error fault ↔ ¬ r.Knows l.object ∧ fault = .unregistered l.object := by
  have hmap : number r l = .error fault ↔ r.varOf l.object = .error fault := by
    rw [number]
    cases r.varOf l.object <;> simp [Except.map]
  rw [hmap, Registry.varOf_eq_error_iff, Registry.Knows, not_exists]

theorem follows_ofTargets {role : Role} {escapes : List ObjectLit} {es : List Lit}
    (hes : List.Forall₂ (ObjectLit.NumberedAs r) escapes es) (ts : List ObjectLit) :
    Follows r (ts.map fun t => ⟨t.object, some ⟨role, escapes ++ [t]⟩⟩)
      (ofTargets r role es ts) := by
  induction ts with
  | nil => exact .done
  | cons t ts ih =>
    rw [ofTargets, List.map_cons]
    rcases hk : number r t with fault | k
    · obtain ⟨unknown, rfl⟩ := number_eq_error_iff.1 hk
      exact .stuck unknown
    · have hnum := number_eq_ok_iff.1 hk
      exact .emit (exists_number_iff.1 ⟨k, hk⟩) rfl
        ⟨rfl, List.rel_append hes (.cons hnum .nil)⟩ ih

theorem follows_ofImplication (i : Implication) : Follows r i.places (ofImplication r i) := by
  rw [Implication.places, ofImplication]
  rcases hes : i.escapes.mapM (number r) with fault | es
  · obtain ⟨before, l, after, hsplit, hbefore, hl⟩ := mapM_eq_error_iff.1 hes
    obtain ⟨unknown, rfl⟩ := number_eq_error_iff.1 hl
    rw [hsplit, List.map_append, List.map_append, List.append_assoc]
    refine Follows.premises (fun o ho => ?_) (.stuck (p := .premise l.object) unknown)
    obtain ⟨b, hb, rfl⟩ := List.mem_map.1 ho
    exact exists_number_iff.1 (hbefore b hb)
  · refine Follows.premises (fun o ho => ?_) (follows_ofTargets ?_ i.targets)
    · obtain ⟨l, hl, rfl⟩ := List.mem_map.1 ho
      exact exists_mapM_number_iff.1 ⟨es, hes⟩ l hl
    · exact (mapM_eq_ok_iff.1 hes).imp fun l k => number_eq_ok_iff.1

theorem follows_ofImplications (is : List Implication) :
    Follows r (is.flatMap Implication.places) (ofImplications r is) := by
  induction is with
  | nil => exact .done
  | cons i is ih =>
    rw [ofImplications, List.flatMap_cons]
    rcases hfirst : (ofImplication r i).failure with _ | fault
    · dsimp only
      exact (follows_ofImplication i).append hfirst ih
    · dsimp only
      exact (follows_ofImplication i).append_of_failure hfirst _

theorem places_uniform (role : Role) (id : ActionId) (guard : Condition) (s : FluentSet)
    (value : Bool) :
    Implication.places ⟨role, ⟨.action id, false⟩ :: Implication.violations guard,
        Implication.uniform s value⟩ =
      (.action id :: guard.mentions.map .fluent : List Object).map .premise ++
        (Consequence.each role guard s value).map (.ofConsequence id) := by
  simp only [Implication.places, Implication.violations, Implication.uniform, Condition.mentions,
    Consequence.each, List.map_cons, List.map_append, List.map_map, Function.comp_def]
  rfl

/-- Two groups of places with the same premises, if the first of these has been seen before. -/
theorem Follows.drop_repeated {o : Object} {os : List Object} {added deleted rest : List Place}
    (h : Follows r (ps ++ (((o :: os).map .premise ++ added) ++
      ((o :: os).map .premise ++ deleted) ++ rest)) e) (seen : o ∈ ps.map Place.object) :
    Follows r (ps ++ (os.map .premise ++ (added ++ deleted) ++ rest)) e := by
  have hfirst : Follows r (ps ++ (os.map .premise ++ added ++
      ((o :: os).map .premise ++ (deleted ++ rest)))) e := by
    have hone : Follows r (ps ++ ([o].map .premise ++ (os.map .premise ++ added ++
        ((o :: os).map .premise ++ (deleted ++ rest))))) e := by
      simpa only [List.map_cons, List.map_nil, List.cons_append, List.nil_append,
        List.append_assoc] using h
    exact hone.drop_premises (List.forall_mem_singleton.2 (.inr seen))
  have hsecond : Follows r (ps ++ (os.map .premise ++ added) ++ (deleted ++ rest)) e := by
    rw [← List.append_assoc] at hfirst
    refine hfirst.drop_premises fun o' ho' => .inr ?_
    simp only [List.map_append, List.mem_append]
    rcases List.mem_cons.1 ho' with rfl | ho'
    · exact .inl seen
    · exact .inr (.inl (List.mem_map.2 ⟨.premise o', List.mem_map_of_mem ho', rfl⟩))
  simpa only [List.append_assoc] using hsecond

/-- The effects name the action and their guards more often than they need to. -/
theorem Follows.drop_effects {id : ActionId} (effects : List ConditionalEffect) :
    ∀ {ps : List Place} {e : Emission}, Object.action id ∈ ps.map Place.object →
      Follows r (ps ++ (effects.flatMap (Implication.ofEffect id)).flatMap Implication.places) e →
        Follows r (ps ++ effects.flatMap (ConditionalEffect.places id)) e := by
  induction effects with
  | nil => exact fun {ps e} _ h => h
  | cons x xs ih =>
    intro ps e hid h
    have hplaces : x.places id = (x.guard.mentions.map Object.fluent).map .premise ++
        ((Consequence.each .positiveEffect x.guard x.effect.positive true).map
          (.ofConsequence id) ++
        (Consequence.each .negativeEffect x.guard x.effect.negative false).map
          (.ofConsequence id)) := by
      rw [ConditionalEffect.places, ConditionalEffect.consequences, List.map_append]
    rw [List.flatMap_cons, List.flatMap_append, Implication.ofEffect, List.flatMap_cons,
      List.flatMap_cons, List.flatMap_nil, List.append_nil, places_uniform, places_uniform] at h
    rw [List.flatMap_cons, ← List.append_assoc]
    refine ih ?_ ?_
    · rw [List.map_append]
      exact List.mem_append_left _ hid
    · rw [hplaces, List.append_assoc]
      exact h.drop_repeated hid

/-- **Emitting an action goes through its places.** -/
theorem follows_ofAction (id : ActionId) (a : Action) :
    Follows r (a.places id) (ofAction r id a) := by
  have h := follows_ofImplications (r := r) (Implication.ofAction id a)
  have hpre : ∀ (role : Role) (s : FluentSet) (value : Bool),
      Implication.places ⟨role, [⟨.action id, false⟩], Implication.uniform s value⟩ =
        [Object.action id].map .premise ++
          (Consequence.each role .empty s value).map (.ofConsequence id) :=
    fun role s value => places_uniform role id .empty s value
  rw [Implication.ofAction, List.flatMap_cons, List.flatMap_cons, hpre, hpre,
    List.append_assoc _ _ (List.flatMap Implication.places _)] at h
  -- The negative precondition names the action once more.
  have honce := h.drop_premises fun o ho => .inr (List.mem_singleton.1 ho ▸ List.mem_cons_self)
  rw [← List.append_assoc] at honce
  have hall := Follows.drop_effects a.effects List.mem_cons_self honce
  rw [Action.places, Condition.consequences, List.map_append]
  exact hall

/-! ## What comes of it

From here on emitting is out of sight: it goes through places, so what it leaves can be read off
the list of places, split at the first object that has no variable. -/

/-- Places that are known contribute their clauses, and then come the other places. -/
theorem Follows.split {before : List Place} : ∀ {e : Emission}, Follows r (before ++ ps) e →
    (∀ b ∈ before, r.Knows b.object) → ∃ (new : List RoleClause) (e' : Emission),
      Follows r ps e' ∧ e.clauses = new ++ e'.clauses ∧ e.failure = e'.failure ∧
        List.Forall₂ (ObjectClause.NumberedAs r) (before.filterMap Place.clause?) new := by
  induction before with
  | nil => exact fun {e} h _ => ⟨[], e, h, rfl, rfl, .nil⟩
  | cons b before ih =>
    intro e h known
    obtain ⟨hb, hbefore⟩ := List.forall_mem_cons.1 known
    cases h with
    | stuck unknown => exact absurd hb unknown
    | pass _ silent rest =>
      obtain ⟨new, e', hrest, hclauses, hfail, hnum⟩ := ih rest hbefore
      exact ⟨new, e', hrest, hclauses, hfail, by rwa [List.filterMap_cons_none silent]⟩
    | @emit _ _ c d e₁ _ complete numbered rest =>
      obtain ⟨new, e', hrest, hclauses, hfail, hnum⟩ := ih rest hbefore
      refine ⟨d :: new, e', hrest, congrArg (d :: ·) hclauses, hfail, ?_⟩
      rw [List.filterMap_cons_some complete]
      exact .cons numbered hnum

/-- **If every object is known, every clause is emitted.** -/
theorem Follows.of_known (h : Follows r ps e) (known : ∀ p ∈ ps, r.Knows p.object) :
    e.failure = none ∧
      List.Forall₂ (ObjectClause.NumberedAs r) (ps.filterMap Place.clause?) e.clauses := by
  rw [← List.append_nil ps] at h
  obtain ⟨new, e', hrest, hclauses, hfail, hnum⟩ := h.split known
  cases hrest
  rw [hclauses, hfail]
  exact ⟨rfl, by rwa [nothing, List.append_nil]⟩

/-- **The first unknown object is the failure**, and the clauses completed before it are emitted. -/
theorem Follows.of_unknown {before after : List Place} {p : Place}
    (h : Follows r (before ++ p :: after) e) (known : ∀ b ∈ before, r.Knows b.object)
    (unknown : ¬ r.Knows p.object) : e.failure = some (.unregistered p.object) ∧
      List.Forall₂ (ObjectClause.NumberedAs r) (before.filterMap Place.clause?) e.clauses := by
  obtain ⟨new, e', hrest, hclauses, hfail, hnum⟩ := h.split known
  cases hrest with
  | stuck =>
    rw [hclauses, hfail]
    exact ⟨rfl, by rwa [fail, List.append_nil]⟩
  | pass hp => exact absurd hp unknown
  | emit hp => exact absurd hp unknown

theorem Follows.exists_of_failure (h : Follows r ps e) {fault : PlanFault}
    (hfail : e.failure = some fault) : ∃ before p after, ps = before ++ p :: after ∧
      (∀ b ∈ before, r.Knows b.object) ∧ ¬ r.Knows p.object := by
  induction h with
  | done => cases hfail
  | @stuck p ps unknown => exact ⟨[], p, ps, rfl, nofun, unknown⟩
  | @pass p _ _ known _ _ ih =>
    obtain ⟨before, q, after, rfl, hbefore, hq⟩ := ih hfail
    exact ⟨p :: before, q, after, rfl, List.forall_mem_cons.2 ⟨known, hbefore⟩, hq⟩
  | @emit p _ _ _ _ known _ _ _ ih =>
    obtain ⟨before, q, after, rfl, hbefore, hq⟩ := ih hfail
    exact ⟨p :: before, q, after, rfl, List.forall_mem_cons.2 ⟨known, hbefore⟩, hq⟩

/-- **Emitting an action fails at its first unknown object.** -/
theorem failure_ofAction_eq_some_iff {id : ActionId} {a : Action} {fault : PlanFault} :
    (ofAction r id a).failure = some fault ↔
      ∃ before o after, Object.action id :: a.mentions.map .fluent = before ++ o :: after ∧
        (∀ b ∈ before, r.Knows b) ∧ ¬ r.Knows o ∧ fault = .unregistered o := by
  have hfollows := follows_ofAction (r := r) id a
  rw [← a.map_object_places id]
  constructor
  · intro hfail
    obtain ⟨before, p, after, hsplit, known, unknown⟩ := hfollows.exists_of_failure hfail
    rw [hsplit] at hfollows ⊢
    rw [(hfollows.of_unknown known unknown).1] at hfail
    refine ⟨before.map Place.object, p.object, after.map Place.object, ?_,
      List.forall_mem_map.2 known, unknown, (Option.some.inj hfail).symm⟩
    rw [List.map_append, List.map_cons]
  · rintro ⟨before, o, after, hsplit, known, unknown, rfl⟩
    obtain ⟨before, rest, hplaces, rfl, hrest⟩ := List.map_eq_append_iff.1 hsplit
    obtain ⟨p, after, rfl, rfl, rfl⟩ := List.map_eq_cons_iff.1 hrest
    rw [hplaces] at hfollows
    exact (hfollows.of_unknown (List.forall_mem_map.1 known) unknown).1

end Emission

/-! ## Encoding actions -/

variable {r : Registry}

theorem encodeAction_fst_eq_error_iff {id : ActionId} {a : Action} {out : List Clause}
    {fault : PlanFault} : (encodeAction r id a out).1 = .error fault ↔
      (Emission.ofAction r id a).failure = some fault := by
  rw [encodeAction]
  rcases (Emission.ofAction r id a).failure with _ | fault'
  · exact iff_of_false (fun h => nomatch h) fun h => nomatch h
  · rw [Except.error.injEq, Option.some.injEq]

theorem encodeAction_fst_eq_ok_iff {id : ActionId} {a : Action} {out : List Clause} :
    (∃ t, (encodeAction r id a out).1 = .ok t) ↔ (Emission.ofAction r id a).failure = none := by
  rw [encodeAction]
  rcases (Emission.ofAction r id a).failure with _ | fault
  · exact iff_of_true ⟨_, rfl⟩ rfl
  · exact iff_of_false (fun h => nomatch h.choose_spec) fun h => nomatch h

/-- **A list of actions fails with the first of them that does.** -/
theorem encodeFrom_eq_error_iff {fault : PlanFault} {actions : List Action} : ∀ {i : Nat}
    {done : Array RoleClause} {sum : Tally}, encodeFrom r i done sum actions = .error fault ↔
      ∃ before a after, actions = before ++ a :: after ∧
        (∀ q ∈ before.zipIdx i, (Emission.ofAction r (.ofNat q.2) q.1).failure = none) ∧
        (Emission.ofAction r (.ofNat (i + before.length)) a).failure = some fault := by
  induction actions with
  | nil =>
    intro i done sum
    refine iff_of_false ?_ ?_
    · rintro ⟨⟩
    · rintro ⟨before, a, after, hsplit, -⟩
      exact List.cons_ne_nil _ _ (List.append_eq_nil_iff.1 hsplit.symm).2
  | cons a as ih =>
    intro i done sum
    rw [encodeFrom]
    rcases hfail : (Emission.ofAction r (.ofNat i) a).failure with _ | fault'
    · refine ih.trans ⟨?_, ?_⟩
      · rintro ⟨before, b, after, rfl, hbefore, hb⟩
        refine ⟨a :: before, b, after, rfl, ?_, ?_⟩
        · rw [List.zipIdx_cons]
          exact List.forall_mem_cons.2 ⟨hfail, hbefore⟩
        · rwa [List.length_cons, Nat.add_comm before.length, ← Nat.add_assoc]
      · rintro ⟨before, b, after, hsplit, hbefore, hb⟩
        rcases before with _ | ⟨c, before⟩
        · cases hsplit
          rw [List.length_nil, Nat.add_zero, hfail] at hb
          cases hb
        · cases hsplit
          rw [List.zipIdx_cons] at hbefore
          rw [List.length_cons, Nat.add_comm before.length, ← Nat.add_assoc] at hb
          exact ⟨before, b, after, rfl, (List.forall_mem_cons.1 hbefore).2, hb⟩
    · refine ⟨fun h => ?_, ?_⟩
      · cases h
        exact ⟨[], a, as, rfl, List.forall_mem_nil _, hfail⟩
      · rintro ⟨before, b, after, hsplit, hbefore, hb⟩
        rcases before with _ | ⟨c, before⟩
        · cases hsplit
          rw [List.length_nil, Nat.add_zero, hfail] at hb
          cases hb
          rfl
        · cases hsplit
          rw [List.zipIdx_cons] at hbefore
          rw [(List.forall_mem_cons.1 hbefore).1] at hfail
          cases hfail

theorem encode_eq_error_iff {maxVariables : Nat} {actions : List Action} (h : r.size ≤ maxVariables)
    {fault : PlanFault} : encode maxVariables actions r = .error fault ↔
      ∃ before a after, actions = before ++ a :: after ∧
        (∀ q ∈ before.zipIdx, (Emission.ofAction r (.ofNat q.2) q.1).failure = none) ∧
        (Emission.ofAction r (.ofNat before.length) a).failure = some fault := by
  have hfrom := @encodeFrom_eq_error_iff r fault actions 0 #[] .zero
  simp only [Nat.zero_add] at hfrom
  rw [encode, if_neg (Nat.not_lt.2 h), ← hfrom]
  cases encodeFrom r 0 #[] .zero actions <;> simp [Except.map]

/-- **Encoding fails at the first unknown object, and what came before it stays.**  The objects are
the action, the fluents of its precondition, and for each effect those of its guard and then those
of the effect itself.  Whatever happens, the clauses at hand are kept; added to them are the clauses
of the precondition and effect fluents before the unknown object, and all of these if there is
none.  A list of actions is refused for its variables before anything else, and then for the first
action that fails. -/
theorem encodeAction_stops (r : Registry) :
    (∀ (id : ActionId) (a : Action) (out : List Clause),
      (a.places id).map Place.object = .action id :: a.mentions.map .fluent ∧
      ((∃ fault, (encodeAction r id a out).1 = .error fault) ↔
        ∃ o ∈ Object.action id :: a.mentions.map .fluent, ¬ r.Knows o) ∧
      (∀ fault, (encodeAction r id a out).1 = .error fault ↔
        ∃ before o after, Object.action id :: a.mentions.map .fluent = before ++ o :: after ∧
          (∀ b ∈ before, r.Knows b) ∧ ¬ r.Knows o ∧ fault = .unregistered o) ∧
      ∃ new : List RoleClause, (encodeAction r id a out).2 = out ++ new.map RoleClause.clause ∧
        ((∀ p ∈ a.places id, r.Knows p.object) →
          (encodeAction r id a out).1 = .ok (.ofClauses new) ∧
          List.Forall₂ (ObjectClause.NumberedAs r) ((a.places id).filterMap Place.clause?) new) ∧
        ∀ before p after, a.places id = before ++ p :: after →
          (∀ b ∈ before, r.Knows b.object) → ¬ r.Knows p.object →
            List.Forall₂ (ObjectClause.NumberedAs r) (before.filterMap Place.clause?) new) ∧
    ∀ (maxVariables : Nat) (actions : List Action),
      (∀ required max, encode maxVariables actions r = .error (.overflow required max) ↔
        maxVariables < r.size ∧ required = r.size ∧ max = maxVariables) ∧
      (r.size ≤ maxVariables → ∀ fault, encode maxVariables actions r = .error fault ↔
        ∃ before a after, actions = before ++ a :: after ∧
          (∀ q ∈ before.zipIdx, ∃ t, (encodeAction r (.ofNat q.2) q.1 []).1 = .ok t) ∧
          (encodeAction r (.ofNat before.length) a []).1 = .error fault) := by
  refine ⟨fun id a out => ?_, fun maxVariables actions => ⟨fun required max => ?_, fun hle => ?_⟩⟩
  · have hfollows := Emission.follows_ofAction (r := r) id a
    refine ⟨a.map_object_places id, ?_, fun fault => ?_, (Emission.ofAction r id a).clauses, rfl,
      ?_, ?_⟩
    · have hknown : (Emission.ofAction r id a).failure = none ↔
          ∀ o ∈ Object.action id :: a.mentions.map .fluent, r.Knows o := by
        rw [Emission.ofAction, Emission.failure_ofImplications_eq_none_iff,
          Emission.known_ofAction_iff, List.forall_mem_cons, List.forall_mem_map]
      simp only [encodeAction_fst_eq_error_iff, ← Option.ne_none_iff_exists']
      rw [ne_eq, hknown]
      simp only [not_forall, exists_prop]
    · rw [encodeAction_fst_eq_error_iff, Emission.failure_ofAction_eq_some_iff]
    · intro known
      obtain ⟨hfail, hnum⟩ := hfollows.of_known known
      refine ⟨?_, hnum⟩
      rw [encodeAction, hfail, Emission.counted_ofAction]
    · intro before p after hsplit known unknown
      rw [hsplit] at hfollows
      exact (hfollows.of_unknown known unknown).2
  · rcases Nat.lt_or_ge maxVariables r.size with hlt | hge
    · rw [encode_of_size_lt hlt]
      simp [hlt, eq_comm]
    · refine iff_of_false (fun h => ?_) fun h => Nat.not_lt.2 hge h.1
      obtain ⟨before, a, after, -, -, hfail⟩ := (encode_eq_error_iff hge).1 h
      obtain ⟨-, o, -, -, -, -, hfault⟩ := Emission.failure_ofAction_eq_some_iff.1 hfail
      cases hfault
  · intro fault
    simp only [encode_eq_error_iff hle, encodeAction_fst_eq_error_iff, encodeAction_fst_eq_ok_iff]

/-- An action whose second effect has a guard that speaks of one fluent more. -/
def grasp : Action where
  name := "grasp"
  precondition := .ofLists [.ofNat 0] []
  effects := [⟨.ofLists [.ofNat 0] [], .ofLists [] [.ofNat 0]⟩,
    ⟨.ofLists [] [.ofNat 1], .ofLists [.ofNat 0] []⟩]

/-- That fluent is not registered: what is emitted before the guard is kept, and the effect behind
it adds nothing. -/
theorem encodeAction_stops_grasp : ∃ r, Registry.register [.action (.ofNat 0), .fluent (.ofNat 0)] =
      .ok r ∧
    (encodeAction r (.ofNat 0) grasp [⟨[]⟩]).1 = .error (.unregistered (.fluent (.ofNat 1))) ∧
    (encodeAction r (.ofNat 0) grasp [⟨[]⟩]).2.length = 3 ∧
    encode 1 [grasp] r = .error (.overflow 2 1) ∧
    encode 2 [grasp] r = .error (.unregistered (.fluent (.ofNat 1))) := by
  obtain ⟨r, hr⟩ := Registry.register_eq_ok_iff.2 <|
    Registry.forall_refusalAt?_eq_none_iff.2 <| show (Registry.arrange
      [.action (.ofNat 0), .fluent (.ofNat 0)]).Nodup ∧ _ by decide
  have hsize : r.size = 2 := (Registry.numbers_of_register hr).size_eq
  have hknows : ∀ o, r.Knows o ↔ o ∈ Registry.arrange [.action (.ofNat 0), .fluent (.ofNat 0)] :=
    fun o => Registry.knows_iff_of_register hr
  obtain ⟨hone, hlist⟩ := encodeAction_stops r
  obtain ⟨-, -, -, new, hnew, -, hcut⟩ := hone (.ofNat 0) grasp [⟨[]⟩]
  have hfail : ∀ out, (encodeAction r (.ofNat 0) grasp out).1 =
      .error (.unregistered (.fluent (.ofNat 1))) := fun out => by
    refine ((hone (.ofNat 0) grasp out).2.2.1 _).2 ⟨[.action (.ofNat 0), .fluent (.ofNat 0),
      .fluent (.ofNat 0), .fluent (.ofNat 0)], .fluent (.ofNat 1), [.fluent (.ofNat 0)],
      by decide, ?_, ?_, rfl⟩
    · simp only [hknows]
      decide
    · rw [hknows]
      decide
  refine ⟨r, hr, hfail _, ?_, ?_, ?_⟩
  · have hnum := hcut ((grasp.places (.ofNat 0)).take 4) (.premise (.fluent (.ofNat 1)))
      ((grasp.places (.ofNat 0)).drop 5) rfl (by simp only [hknows]; decide)
      (by rw [hknows]; decide)
    rw [hnew, List.length_append, List.length_map, ← hnum.length_eq]
    rfl
  · exact ((hlist 1 [grasp]).1 2 1).2 (by rw [hsize]; decide)
  · refine ((hlist 2 [grasp]).2 (Nat.le_of_eq hsize) _).2 ⟨[], grasp, [], rfl, nofun, hfail _⟩

end SnapshotPlan
