import SnapshotPlan.Proofs.Encoding.Tallies

/-!
# Encodings do not depend on the numbering

Two registries may number the same objects in any order and know other objects besides.  A variable
of the one stands for an object, and the object has a variable of the other; that is all that
changes when a list of actions is encoded with the other registry.

## What is here

* `Registry.renumber`, `Lit.renumber`, `Clause.renumber` — from the variables of one registry to
  those of another, by way of the objects.
* `mapM_renumber_of_encode` — **the one encoding, renumbered, is the other.**
* `Registry.carry` — an assignment to the variables of one registry as one to those of another.
  `satisfies_carry_iff`: it satisfies the other encoding iff the first satisfies the one.
* `encode_renumbered` — **what two encodings of the same actions share**, in one statement.
-/

set_option autoImplicit false

namespace SnapshotPlan

/-! ## Renumbering -/

/-- The variable that the second registry has for the object of a variable of the first. -/
def Registry.renumber (r r' : Registry) (v : Var) : Except PlanFault Var :=
  (r.objectOf v).bind r'.varOf

/-- The literal about the renumbered variable, with the same sign. -/
def Lit.renumber (r r' : Registry) (l : Lit) : Except PlanFault Lit :=
  (r.renumber r' l.var).map fun v => ⟨v, l.positive⟩

/-- The clause of the renumbered literals, in the same order. -/
def Clause.renumber (r r' : Registry) (c : Clause) : Except PlanFault Clause :=
  (c.lits.mapM (Lit.renumber r r')).map Clause.mk

variable {r r' : Registry}

theorem Registry.renumber_of_varOf {o : Object} {v v' : Var} (h : r.varOf o = .ok v)
    (h' : r'.varOf o = .ok v') : r.renumber r' v = .ok v' := by
  rw [renumber, varOf_eq_ok_iff_objectOf.1 h]
  exact h'

theorem ObjectLit.NumberedAs.renumber {l : ObjectLit} {k k' : Lit} (h : l.NumberedAs r k)
    (h' : l.NumberedAs r' k') : k.renumber r r' = .ok k' := by
  rw [Lit.renumber, Registry.renumber_of_varOf h.1 h'.1]
  exact congrArg Except.ok (Lit.ext rfl (h.2.trans h'.2.symm))

theorem ObjectClause.NumberedAs.renumber {c : ObjectClause} {d d' : RoleClause}
    (h : c.NumberedAs r d) (h' : c.NumberedAs r' d') :
    d.clause.renumber r r' = .ok d'.clause := by
  have hlits : d.clause.lits.mapM (Lit.renumber r r') = .ok d'.clause.lits := by
    refine mapM_eq_ok_iff.2 ((forall₂_of_common h.2 h'.2).imp ?_)
    rintro k k' ⟨l, hk, hk'⟩
    exact hk.renumber hk'
  rw [Clause.renumber, hlits]
  rfl

/-! ## Two encodings of the same actions -/

variable {maxVariables maxVariables' : Nat} {actions : List Action} {e e' : Encoding}

/-- **The one encoding, renumbered, is the other.** -/
theorem mapM_renumber_of_encode (h : encode maxVariables actions r = .ok e)
    (h' : encode maxVariables' actions r' = .ok e') :
    e.clauses.mapM (Clause.renumber r r') = .ok e'.clauses := by
  rw [mapM_eq_ok_iff, Encoding.clauses, Encoding.clauses, List.forall₂_map_left_iff,
    List.forall₂_map_right_iff]
  refine (forall₂_of_common (numberedAs_of_encode h) (numberedAs_of_encode h')).imp ?_
  rintro d d' ⟨c, hd, hd'⟩
  exact hd.renumber hd'

/-! ### Assignments

An assignment is carried over by way of the objects.  Both encodings mention only objects that
both registries know, so it does not matter what becomes of the others. -/

/-- The assignment to the variables of the second registry that gives each object the value that it
has under an assignment to those of the first. -/
def Registry.carry (r r' : Registry) (σ : Assignment) : Assignment := fun v =>
  match r'.objectOf v with
  | .ok o => r.read σ o
  | .error _ => false

theorem Registry.read_carry {o : Object} (h : r'.Knows o) (σ : Assignment) :
    r'.read (r.carry r' σ) o = r.read σ o := by
  obtain ⟨v, hv⟩ := h
  rw [read_of_varOf hv, carry, varOf_eq_ok_iff_objectOf.1 hv]

/-- Whether an object clause holds depends on its own objects only. -/
theorem ObjectClause.holds_congr {τ τ' : Object → Bool} {c : ObjectClause}
    (h : ∀ l ∈ c.lits, τ l.object = τ' l.object) : c.Holds τ ↔ c.Holds τ' := by
  refine exists_congr fun l => and_congr_right fun hl => ?_
  rw [ObjectLit.Holds, ObjectLit.Holds, h l hl]

theorem knows_of_mem_objectClauses (h : encode maxVariables actions r = .ok e) {c : ObjectClause}
    (hc : c ∈ objectClauses actions) {l : ObjectLit} (hl : l ∈ c.lits) : r.Knows l.object := by
  obtain ⟨d, -, hd⟩ := exists_right_of_forall₂ (numberedAs_of_encode h) hc
  obtain ⟨k, -, hk⟩ := exists_right_of_forall₂ hd.2 hl
  exact ⟨k.var, hk.1⟩

/-- **An assignment satisfies the one encoding iff, carried over, it satisfies the other.** -/
theorem satisfies_carry_iff (h : encode maxVariables actions r = .ok e)
    (h' : encode maxVariables' actions r' = .ok e') (σ : Assignment) :
    Satisfies (r.carry r' σ) e'.clauses ↔ Satisfies σ e.clauses := by
  rw [satisfies_iff_holds_objectClauses h, satisfies_iff_holds_objectClauses h']
  refine forall₂_congr fun c hc => ObjectClause.holds_congr fun l hl => ?_
  exact Registry.read_carry (knows_of_mem_objectClauses h' hc hl) σ

/-- Some assignment that satisfies the clauses makes the action true. -/
def Registry.Selectable (r : Registry) (cs : List Clause) (id : ActionId) : Prop :=
  ∃ σ, Satisfies σ cs ∧ r.read σ (.action id) = true

/-- What can be selected with one numbering can be selected with any other. -/
theorem Registry.Selectable.carry {id : ActionId} (h : encode maxVariables actions r = .ok e)
    (h' : encode maxVariables' actions r' = .ok e') (hid : r'.Knows (.action id))
    (hsel : r.Selectable e.clauses id) : r'.Selectable e'.clauses id := by
  obtain ⟨σ, hσ, htrue⟩ := hsel
  exact ⟨r.carry r' σ, (satisfies_carry_iff h h' σ).2 hσ, (read_carry hid σ).trans htrue⟩

/-! ## In one statement -/

/-- **The numbering does not matter.**  Encodings of the same actions with two registries have the
same clauses in the same order, except that each variable of the one is replaced by the variable
that its object has in the other; and they have the same tally.  An assignment that gives the
objects the same values satisfies both or neither, so both are satisfiable or neither is, and the
same actions can be selected. -/
theorem encode_renumbered (h : encode maxVariables actions r = .ok e)
    (h' : encode maxVariables' actions r' = .ok e') :
    e'.clauses.length = e.clauses.length ∧
    e.clauses.mapM (Clause.renumber r r') = .ok e'.clauses ∧
    e'.tally = e.tally ∧
    (∀ σ, Satisfies (r.carry r' σ) e'.clauses ↔ Satisfies σ e.clauses) ∧
    ((∃ σ, Satisfies σ e.clauses) ↔ ∃ σ, Satisfies σ e'.clauses) ∧
    ∀ i < actions.length,
      r.Selectable e.clauses (.ofNat i) ↔ r'.Selectable e'.clauses (.ofNat i) := by
  have hmap := mapM_renumber_of_encode h h'
  refine ⟨(mapM_eq_ok_iff.1 hmap).length_eq.symm, hmap, ?_, satisfies_carry_iff h h', ?_, ?_⟩
  · rw [tally_of_encode h, tally_of_encode h']
  · constructor
    · rintro ⟨σ, hσ⟩
      exact ⟨_, (satisfies_carry_iff h h' σ).2 hσ⟩
    · rintro ⟨σ, hσ⟩
      exact ⟨_, (satisfies_carry_iff h' h σ).2 hσ⟩
  · intro i hi
    have hat := List.getElem?_eq_getElem hi
    have hknown := ((satisfies_encode_iff h).1 i _ hat).1
    have hknown' := ((satisfies_encode_iff h').1 i _ hat).1
    exact ⟨.carry h h' hknown', .carry h' h hknown⟩

/-- The same actions, numbered without gaps and, in another order, among objects that they do not
mention: the second action has variable 4 in the one numbering and 8 in the other.  Both encodings
have nine clauses, seven of which come from effects. -/
theorem encode_renumbered_relay : ∃ r r' e e',
    Registry.register [.action (.ofNat 1), .fluent (.ofNat 2), .fluent (.ofNat 0),
      .action (.ofNat 0), .fluent (.ofNat 1)] = .ok r ∧
    Registry.register [.action (.ofNat 9), .fluent (.ofNat 0), .fluent (.ofNat 7),
      .action (.ofNat 0), .fluent (.ofNat 1), .action (.ofNat 1), .fluent (.ofNat 2),
      .fluent (.ofNat 5)] = .ok r' ∧
    encode 5 relay r = .ok e ∧ encode 9 relay r' = .ok e' ∧
    (∃ v v', r.renumber r' v = .ok v' ∧ v.id = 4 ∧ v'.id = 8) ∧
    e.clauses.length = 9 ∧ e'.clauses.length = 9 ∧
    e.clauses.mapM (Clause.renumber r r') = .ok e'.clauses ∧
    e.tally = ⟨1, 1, 3, 4⟩ ∧ e'.tally = ⟨1, 1, 3, 4⟩ := by
  obtain ⟨r, e, hr, he⟩ := @exists_encode_of_register [.action (.ofNat 1), .fluent (.ofNat 2),
      .fluent (.ofNat 0), .action (.ofNat 0), .fluent (.ofNat 1)] 5 relay (by decide) (by decide)
    (by decide) (by decide)
  obtain ⟨r', e', hr', he'⟩ := @exists_encode_of_register [.action (.ofNat 9), .fluent (.ofNat 0),
      .fluent (.ofNat 7), .action (.ofNat 0), .fluent (.ofNat 1), .action (.ofNat 1),
      .fluent (.ofNat 2), .fluent (.ofNat 5)] 9 relay (by decide) (by decide) (by decide)
    (by decide)
  obtain ⟨hlength, hmap, htally, -⟩ := encode_renumbered he he'
  have hnine : e.clauses.length = 9 := (length_clauses_of_encode he).trans (by decide)
  have hsum : e.tally = ⟨1, 1, 3, 4⟩ := (tally_of_encode he).trans (by decide)
  refine ⟨r, r', e, e', hr, hr', he, he', ?_, hnine, hlength.trans hnine, hmap, hsum,
    htally.trans hsum⟩
  have hv : r.varOf (.action (.ofNat 1)) = .ok ⟨4, by decide, by decide⟩ :=
    ((Registry.numbers_of_register hr).varOf_iff _ _).2
      (((Registry.numbers_of_register hr).objectAt_iff 4 _).2 (by decide))
  have hv' : r'.varOf (.action (.ofNat 1)) = .ok ⟨8, by decide, by decide⟩ :=
    ((Registry.numbers_of_register hr').varOf_iff _ _).2
      (((Registry.numbers_of_register hr').objectAt_iff 8 _).2 (by decide))
  exact ⟨_, _, Registry.renumber_of_varOf hv hv', rfl, rfl⟩

end SnapshotPlan
