import SnapshotPlan.Proofs.Encoding.Clauses
import SnapshotPlan.Proofs.Encoding.Numbering

/-!
# What the clauses of an encoding mean

An assignment gives truth values to variables, and through a registry it gives them to objects:
that is `Registry.read`.  This file says which assignments satisfy an encoding, in terms of the
objects alone.

## What is here

* `Action.RespectedBy` — an action that is true has its precondition, and each of its effects
  whose guard holds.
* `holds_clauses_iff` and `respected_ofAction_iff` — the clauses of an implication and the
  implications of an action say no more and no less than that.
* `satisfies_encode_iff` — **the payoff**: an assignment satisfies an encoding iff it respects
  every action of the list.
-/

set_option autoImplicit false

namespace SnapshotPlan

/-! ## Truth of objects -/

/-- The truth value that an assignment gives to an object, through the object's variable.  An
object without a variable counts as false. -/
def Registry.read (r : Registry) (σ : Assignment) (o : Object) : Bool :=
  match r.varOf o with
  | .ok v => σ v
  | .error _ => false

theorem Registry.read_of_varOf {r : Registry} {o : Object} {v : Var} (h : r.varOf o = .ok v)
    (σ : Assignment) : r.read σ o = σ v := by
  rw [read, h]

/-- An object is true iff its variable is, and an object without a variable never is. -/
theorem Registry.read_eq_true_iff {r : Registry} {σ : Assignment} {o : Object} :
    r.read σ o = true ↔ ∃ v, r.varOf o = .ok v ∧ σ v = true := by
  rw [read]
  rcases r.varOf o with fault | v <;> simp

variable {τ : Object → Bool}

/-- The fluents that the condition asks for are true, and those that it forbids are false. -/
def Condition.HoldsUnder (τ : Object → Bool) (c : Condition) : Prop :=
  (∀ f ∈ c.positive, τ (.fluent f) = true) ∧ ∀ f ∈ c.negative, τ (.fluent f) = false

/-- The fluents that the effect adds are true, and those that it deletes are false. -/
def Effect.HoldsUnder (τ : Object → Bool) (e : Effect) : Prop :=
  (∀ f ∈ e.positive, τ (.fluent f) = true) ∧ ∀ f ∈ e.negative, τ (.fluent f) = false

/-- If the action is true, then its precondition holds, and so does each of its effects whose guard
does. -/
def Action.RespectedBy (τ : Object → Bool) (id : ActionId) (a : Action) : Prop :=
  τ (.action id) = true → a.precondition.HoldsUnder τ ∧
    ∀ e ∈ a.effects, e.guard.HoldsUnder τ → e.effect.HoldsUnder τ

/-- Some literal of the object clause holds. -/
def ObjectClause.Holds (τ : Object → Bool) (c : ObjectClause) : Prop := ∃ l ∈ c.lits, l.Holds τ

/-! ## Numbering keeps the meaning

An object clause speaks of objects and a numbered one of variables.  Through the registry they
are about the same truth values, literal by literal. -/

theorem ObjectLit.NumberedAs.holds_iff {r : Registry} {l : ObjectLit} {k : Lit}
    (h : l.NumberedAs r k) (σ : Assignment) : k.Holds σ ↔ l.Holds (r.read σ) := by
  rw [Lit.Holds, ObjectLit.Holds, Registry.read_of_varOf h.1, h.2]

theorem ObjectClause.NumberedAs.holds_iff {r : Registry} {c : ObjectClause} {d : RoleClause}
    (h : c.NumberedAs r d) (σ : Assignment) : d.clause.Holds σ ↔ c.Holds (r.read σ) := by
  constructor
  · rintro ⟨k, hk, hσ⟩
    obtain ⟨l, hl, hlk⟩ := exists_left_of_forall₂ h.2 hk
    exact ⟨l, hl, (hlk.holds_iff σ).1 hσ⟩
  · rintro ⟨l, hl, hσ⟩
    obtain ⟨k, hk, hlk⟩ := exists_right_of_forall₂ h.2 hl
    exact ⟨k, hk, (hlk.holds_iff σ).2 hσ⟩

/-- **An encoding means what the clauses over objects mean.** -/
theorem satisfies_iff_holds_objectClauses {maxVariables : Nat} {actions : List Action}
    {r : Registry} {e : Encoding} (h : encode maxVariables actions r = .ok e) (σ : Assignment) :
    Satisfies σ e.clauses ↔ ∀ c ∈ objectClauses actions, c.Holds (r.read σ) := by
  have hnum := numberedAs_of_encode h
  refine ⟨fun hσ c hc => ?_, fun hτ k hk => ?_⟩
  · obtain ⟨d, hd, hcd⟩ := exists_right_of_forall₂ hnum hc
    exact (hcd.holds_iff σ).1 (hσ d.clause (List.mem_map_of_mem hd))
  · obtain ⟨d, hd, rfl⟩ := List.mem_map.1 hk
    obtain ⟨c, hc, hcd⟩ := exists_left_of_forall₂ hnum hd
    exact (hcd.holds_iff σ).2 (hτ c hc)

/-! ## Implications

Read as clauses, an implication says that an escape holds or all targets do.  The guard of an
effect is among the escapes, denied, so this comes to what respecting the effect means. -/

theorem Implication.holds_clauses_iff {i : Implication} :
    (∀ c ∈ i.clauses, c.Holds τ) ↔ i.Respected τ := by
  have hone : ∀ t, ObjectClause.Holds τ ⟨i.role, i.escapes ++ [t]⟩ ↔
      (∃ l ∈ i.escapes, l.Holds τ) ∨ t.Holds τ := fun t => by
    simp [ObjectClause.Holds, or_and_right, exists_or]
  rw [clauses, List.forall_mem_map, Respected]
  simp only [hone]
  by_cases hesc : ∃ l ∈ i.escapes, l.Holds τ
  · exact iff_of_true (fun t _ => .inl hesc) (.inl hesc)
  · simp only [hesc, false_or]

theorem Implication.holds_uniform_iff {s : FluentSet} {value : Bool} :
    (∀ l ∈ uniform s value, l.Holds τ) ↔ ∀ f ∈ s, τ (.fluent f) = value := by
  rw [uniform, List.forall_mem_map]
  exact Iff.rfl

/-- A condition is violated iff it does not hold. -/
theorem Implication.exists_violation_iff {c : Condition} :
    (∃ l ∈ violations c, l.Holds τ) ↔ ¬ c.HoldsUnder τ := by
  have hflip : ∀ (s : FluentSet) (value : Bool),
      (∃ l ∈ uniform s (!value), l.Holds τ) ↔ ¬ ∀ f ∈ s, τ (.fluent f) = value :=
    fun s value => by
      simp [uniform, ObjectLit.Holds, Bool.eq_not, FluentSet.mem_def, FluentSet.toList]
  rw [Condition.HoldsUnder, not_and_or, ← hflip, ← hflip, violations]
  simp only [List.mem_append, or_and_right, exists_or, Bool.not_true, Bool.not_false]

theorem Implication.respected_ofEffect_iff {id : ActionId} {e : ConditionalEffect} :
    (∀ i ∈ ofEffect id e, i.Respected τ) ↔
      (τ (.action id) = true → e.guard.HoldsUnder τ → e.effect.HoldsUnder τ) := by
  have hesc : (∃ l ∈ (⟨.action id, false⟩ :: violations e.guard : List ObjectLit), l.Holds τ) ↔
      τ (.action id) = false ∨ ¬ e.guard.HoldsUnder τ := by
    rw [List.exists_mem_cons_iff, exists_violation_iff]
    exact Iff.rfl
  simp only [ofEffect, List.forall_mem_cons, Respected, hesc, holds_uniform_iff]
  rw [Effect.HoldsUnder]
  cases τ (.action id) <;> by_cases hg : e.guard.HoldsUnder τ <;> simp [hg]

/-- **The implications of an action ask for what being true means for it.** -/
theorem Implication.respected_ofAction_iff {id : ActionId} {a : Action} :
    (∀ i ∈ ofAction id a, i.Respected τ) ↔ a.RespectedBy τ id := by
  have hpre : ∀ (role : Role) (s : FluentSet) (value : Bool),
      Respected τ ⟨role, [⟨.action id, false⟩], uniform s value⟩ ↔
        (τ (.action id) = true → ∀ f ∈ s, τ (.fluent f) = value) := fun role s value => by
    rw [Respected, holds_uniform_iff]
    simp only [List.mem_singleton, exists_eq_left, ObjectLit.Holds]
    cases τ (.action id) <;> simp
  rw [ofAction, List.forall_mem_cons, List.forall_mem_cons, hpre, hpre, List.forall_mem_flatMap]
  simp only [respected_ofEffect_iff, Action.RespectedBy, Condition.HoldsUnder]
  constructor
  · rintro ⟨hpos, hneg, heff⟩ hid
    exact ⟨⟨hpos hid, hneg hid⟩, fun e he => heff e he hid⟩
  · intro h
    exact ⟨fun hid => (h hid).1.1, fun hid => (h hid).1.2, fun e he hid => (h hid).2 e he⟩

/-! ## Lists of actions -/

theorem holds_objectClauses_iff {actions : List Action} :
    (∀ c ∈ objectClauses actions, c.Holds τ) ↔
      ∀ (i : Nat) (a : Action), actions[i]? = some a → a.RespectedBy τ (.ofNat i) := by
  simp only [objectClauses, objectClausesFrom, Action.clauses, List.forall_mem_flatMap,
    Implication.holds_clauses_iff, Implication.respected_ofAction_iff]
  exact forall_mem_zipIdx_iff

theorem Registry.knowsAll_iff {r : Registry} {actions : List Action} :
    r.KnowsAll 0 actions ↔ ∀ (i : Nat) (a : Action), actions[i]? = some a →
      r.Knows (.action (.ofNat i)) ∧ ∀ f ∈ a.mentions, r.Knows (.fluent f) := by
  rw [Registry.KnowsAll, forall_mem_zipIdx_iff]

/-- A registry knows what was registered. -/
theorem Registry.knows_iff_of_register {objects : List Object} {r : Registry}
    (h : register objects = .ok r) {o : Object} : r.Knows o ↔ o ∈ arrange objects := by
  obtain ⟨hobj, -, hmax⟩ := objects_of_register h
  rw [← hobj, mem_objects_iff hmax]
  exact Iff.rfl

/-- A registry of all objects that the actions concern is enough to encode them. -/
theorem exists_encode_of_register {objects : List Object} {maxVariables : Nat}
    {actions : List Action} (hnodup : (Registry.arrange objects).Nodup)
    (hmax : (Registry.arrange objects).length ≤ Var.maxId)
    (hlimit : (Registry.arrange objects).length ≤ maxVariables)
    (hall : ∀ q ∈ actions.zipIdx, Object.action (.ofNat q.2) ∈ Registry.arrange objects ∧
      ∀ f ∈ q.1.mentions, Object.fluent f ∈ Registry.arrange objects) :
    ∃ r e, Registry.register objects = .ok r ∧ encode maxVariables actions r = .ok e := by
  obtain ⟨r, hr⟩ := Registry.register_eq_ok_iff.2 <|
    Registry.forall_refusalAt?_eq_none_iff.2 ⟨hnodup, hmax⟩
  have hle : r.size ≤ maxVariables := by
    rwa [(Registry.numbers_of_register hr).size_eq]
  have hknown : r.KnowsAll 0 actions := fun q hq => by
    simp only [Registry.knows_iff_of_register hr]
    exact hall q hq
  obtain ⟨e, he⟩ := encode_eq_ok_iff.2 ⟨hle, hknown⟩
  exact ⟨r, e, hr, he⟩

/-- **Encoding is exact.**  Every object that a successful encoding concerns has a variable, and an
assignment satisfies the clauses iff, read through these variables, it respects every action. -/
theorem satisfies_encode_iff {maxVariables : Nat} {actions : List Action} {r : Registry}
    {e : Encoding} (h : encode maxVariables actions r = .ok e) :
    (∀ (i : Nat) (a : Action), actions[i]? = some a →
      r.Knows (.action (.ofNat i)) ∧ ∀ f ∈ a.mentions, r.Knows (.fluent f)) ∧
    ∀ σ : Assignment, Satisfies σ e.clauses ↔
      ∀ (i : Nat) (a : Action), actions[i]? = some a → a.RespectedBy (r.read σ) (.ofNat i) := by
  refine ⟨Registry.knowsAll_iff.1 (encode_eq_ok_iff.1 ⟨e, h⟩).2, fun σ => ?_⟩
  rw [satisfies_iff_holds_objectClauses h, holds_objectClauses_iff]

/-- An action whose fluent sets overlap wherever they can: it asks for a fluent both ways, and its
effect adds what it deletes. -/
def tangled : Action where
  name := "tangled"
  precondition := .ofLists [.ofNat 0] [.ofNat 0]
  effects := [⟨.ofLists [.ofNat 0] [.ofNat 1], .ofLists [.ofNat 0, .ofNat 1] [.ofNat 0, .ofNat 1]⟩]

theorem satisfies_encode_iff_tangled :
    ∃ r e, Registry.register [.action (.ofNat 0), .fluent (.ofNat 0), .fluent (.ofNat 1)] = .ok r ∧
      encode 3 [tangled] r = .ok e ∧
      ∀ σ : Assignment, Satisfies σ e.clauses ↔
        ∀ (i : Nat) (a : Action), [tangled][i]? = some a → a.RespectedBy (r.read σ) (.ofNat i) := by
  obtain ⟨r, hr⟩ := Registry.register_eq_ok_iff.2 <|
    Registry.forall_refusalAt?_eq_none_iff.2 <| show (Registry.arrange
      [.action (.ofNat 0), .fluent (.ofNat 0), .fluent (.ofNat 1)]).Nodup ∧ _ by decide
  obtain ⟨hobj, -, hmax⟩ := Registry.objects_of_register hr
  have hsize : r.size ≤ 3 := by rw [Registry.size, ← Array.length_toList, hobj]; decide
  have hknows : ∀ o ∈ Registry.arrange [.action (.ofNat 0), .fluent (.ofNat 0), .fluent (.ofNat 1)],
      r.Knows o := fun o ho => (Registry.mem_objects_iff hmax).1 (hobj ▸ ho)
  have hfluents : ∀ f ∈ tangled.mentions, Object.fluent f ∈ Registry.arrange
      [.action (.ofNat 0), .fluent (.ofNat 0), .fluent (.ofNat 1)] := by decide
  have hall : r.KnowsAll 0 [tangled] := by
    intro q hq
    obtain rfl := List.mem_singleton.1 hq
    exact ⟨hknows _ (by decide), fun f hf => hknows _ (hfluents f hf)⟩
  obtain ⟨e, he⟩ := encode_eq_ok_iff.2 ⟨hsize, hall⟩
  exact ⟨r, e, hr, he, (satisfies_encode_iff he).2⟩

end SnapshotPlan
