import Mathlib.Tactic.Ring
import SnapshotPlan.Proofs.Blocks.Naming
import SnapshotPlan.Proofs.World.Assembly

/-!
# What a blocks world consists of

The three kinds of actions do one thing: they take a block from one place and put it in another,
where a place is the table or another block.  `Transfer` is what an action of any kind does, and the
rest of the theory knows no other actions.

## What is here

* `Transfer`, `Transfer.action` and `exists_transfer_of_mem_actions` — **every action is a
  transfer.**
* `standing_inj`, `standing_ne_clear`, `clear_inj` — **fluents with distinct meanings are
  distinct**, as long as there are numbers for all.
* `IsWorld` and `exists_world` — **the generator never fails**, and what it makes.
* `length_actions` — there are `n * n * (n - 1)` actions.
* `IsWorld.fluentName?_on` and its companions — **a fluent has the name that tells its meaning.**
-/

set_option autoImplicit false

namespace SnapshotPlan.Blocks

variable {n : Nat}

/-! ## Transfers -/

/-- The block stands in the given place: on another block, or on the table. -/
def standing (n : Nat) (x : Fin n) : Option (Fin n) → FluentId
  | none => ontable x
  | some y => on n x y

/-- What has to be clear for a block to be put in the place: the block there, if there is one. -/
def clearing (n : Nat) (place : Option (Fin n)) : List FluentId :=
  place.toList.map fun z : Fin n => clear n z

theorem mem_clearing {place : Option (Fin n)} {f : FluentId} :
    f ∈ clearing n place ↔ ∃ z : Fin n, place = some z ∧ clear n z = f := by
  rw [clearing, List.mem_map]
  simp only [Option.mem_toList]

/-- A block is taken from one place and put in another. -/
structure Transfer (n : Nat) where
  block : Fin n
  source : Option (Fin n)
  target : Option (Fin n)
  source_ne_self : source ≠ some block
  target_ne_self : target ≠ some block
  target_ne_source : target ≠ source

/-- The action that makes the transfer: the block has to stand in its place and be clear, and what
it is put on has to be clear. -/
def Transfer.action (t : Transfer n) (name : String) : Action :=
  operator name (standing n t.block t.source :: clear n t.block :: clearing n t.target)
    (standing n t.block t.target :: clearing n t.source)
    (standing n t.block t.source :: clearing n t.target)

theorem mem_actions_iff {a : Action} : a ∈ actions n ↔ ∃ x < n, ∃ y, (y < n ∧ y ≠ x) ∧
    ((∃ z, ((z < n ∧ z ≠ x) ∧ z ≠ y) ∧ move n x y z = a) ∨
      a = moveToTable n x y ∨ a = moveFromTable n x y) := by
  simp only [actions, List.mem_flatMap, List.mem_range, List.mem_append, List.mem_map,
    List.mem_filter, mem_others, List.mem_pair, decide_eq_true_eq]

/-- **Every action is a transfer.** -/
theorem exists_transfer_of_mem_actions {a : Action} (h : a ∈ actions n) :
    ∃ (t : Transfer n) (name : String), a = t.action name := by
  obtain ⟨x, hx, y, ⟨hy, hyx⟩, ⟨z, ⟨⟨hz, hzx⟩, hzy⟩, rfl⟩ | rfl | rfl⟩ := mem_actions_iff.1 h
  · exact ⟨⟨⟨x, hx⟩, some ⟨y, hy⟩, some ⟨z, hz⟩, by simpa, by simpa, by simpa⟩, _, rfl⟩
  · exact ⟨⟨⟨x, hx⟩, some ⟨y, hy⟩, none, by simpa, nofun, nofun⟩, _, rfl⟩
  · exact ⟨⟨⟨x, hx⟩, none, some ⟨y, hy⟩, nofun, by simpa, nofun⟩, _, rfl⟩

/-! ## The numbers of the fluents

The numbers run through three regions: a row for the table, a row for what is clear, and a grid
without its diagonal for the rest.  Before they are cut down to words, no two fluents share one. -/

/-- The number of the fluent that a block stands in a place. -/
def standingNumber (x : Fin n) : Option (Fin n) → Nat
  | none => x
  | some y => 2 * n + x * (n - 1) + if y.val < x.val then y.val else y - 1

theorem standing_eq (x : Fin n) (place : Option (Fin n)) :
    standing n x place = .ofNat (standingNumber x place) := by
  cases place <;> rfl

/-- A row of `on` fluents leaves out the block itself. -/
theorem column_lt {x y : Fin n} (hne : y ≠ x) :
    (if y.val < x.val then y.val else y - 1) < n - 1 := by
  have hne' : y.val ≠ x.val := fun h => hne (Fin.ext h)
  split <;> omega

/-- A place in a grid determines its row and its column. -/
theorem row_inj {d x x' k k' : Nat} (hk : k < d) (hk' : k' < d) (h : x * d + k = x' * d + k') :
    x = x' ∧ k = k' := by
  have hd : 0 < d := Nat.zero_lt_of_lt hk
  have hdiv := congrArg (· / d) h
  simp only [Nat.mul_comm _ d, Nat.mul_add_div hd, Nat.div_eq_of_lt hk, Nat.div_eq_of_lt hk',
    Nat.add_zero] at hdiv
  subst hdiv
  exact ⟨rfl, Nat.add_left_cancel h⟩

theorem standingNumber_lt {x : Fin n} {place : Option (Fin n)} (h : place ≠ some x) :
    standingNumber x place < n * (n + 1) := by
  obtain ⟨m, rfl⟩ : ∃ m, n = m + 1 := ⟨n - 1, (Nat.sub_add_cancel (Fin.pos x)).symm⟩
  have hgrid : (m + 1) * (m + 1 + 1) = m * m + 3 * m + 2 := by ring
  cases place with
  | none =>
    rw [standingNumber]
    omega
  | some y =>
    have hcol := column_lt (x := x) (y := y) fun e => h (congrArg some e)
    have hrow : x.val * m ≤ m * m := Nat.mul_le_mul_right m (by omega)
    rw [standingNumber]
    simp only [Nat.add_sub_cancel] at hcol ⊢
    omega

theorem standingNumber_inj {x x' : Fin n} {place place' : Option (Fin n)} (h : place ≠ some x)
    (h' : place' ≠ some x') (heq : standingNumber x place = standingNumber x' place') :
    x = x' ∧ place = place' := by
  rcases place with _ | y <;> rcases place' with _ | y' <;> simp only [standingNumber] at heq
  · exact ⟨Fin.ext heq, rfl⟩
  · omega
  · omega
  · have hyx : y ≠ x := fun e => h (congrArg some e)
    have hyx' : y' ≠ x' := fun e => h' (congrArg some e)
    rw [Nat.add_assoc, Nat.add_assoc, Nat.add_left_cancel_iff] at heq
    obtain ⟨hrow, hval⟩ := row_inj (column_lt hyx) (column_lt hyx') heq
    obtain rfl := Fin.ext hrow
    have hne : y.val ≠ x.val := fun e => hyx (Fin.ext e)
    have hne' : y'.val ≠ x.val := fun e => hyx' (Fin.ext e)
    refine ⟨rfl, congrArg some (Fin.ext ?_)⟩
    split at hval <;> split at hval <;> omega

theorem clearNumber_lt (x : Fin n) : n + x.val < n * (n + 1) := by
  have hpos := Fin.pos x
  have hsq : n * 1 ≤ n * n := Nat.mul_le_mul_left n hpos
  rw [Nat.mul_succ]
  omega

/-! ## Distinct fluents

There have to be numbers for all fluents; otherwise some would share a number. -/

section Distinct

variable (hn : n * (n + 1) ≤ UInt32.size)

include hn

/-- A number below the number of fluents is not cut down to 32 bits. -/
theorem ofNat_inj {i j : Nat} (hi : i < n * (n + 1)) (hj : j < n * (n + 1)) :
    FluentId.ofNat i = FluentId.ofNat j ↔ i = j := by
  rw [← FluentId.toNat_inj, FluentId.toNat_ofNat (Nat.lt_of_lt_of_le hi hn),
    FluentId.toNat_ofNat (Nat.lt_of_lt_of_le hj hn)]

theorem standing_inj {x x' : Fin n} {place place' : Option (Fin n)} (h : place ≠ some x)
    (h' : place' ≠ some x') :
    standing n x place = standing n x' place' ↔ x = x' ∧ place = place' := by
  rw [standing_eq, standing_eq, ofNat_inj hn (standingNumber_lt h) (standingNumber_lt h')]
  refine ⟨standingNumber_inj h h', ?_⟩
  rintro ⟨rfl, rfl⟩
  rfl

theorem clear_inj {x x' : Fin n} : clear n x = clear n x' ↔ x = x' := by
  rw [clear, clear, ofNat_inj hn (clearNumber_lt x) (clearNumber_lt x'), Nat.add_left_cancel_iff,
    Fin.ext_iff]

theorem standing_ne_clear {x y : Fin n} {place : Option (Fin n)} (h : place ≠ some x) :
    standing n x place ≠ clear n y := by
  rw [standing_eq, clear, Ne, ofNat_inj hn (standingNumber_lt h) (clearNumber_lt y)]
  cases place <;> simp only [standingNumber] <;> omega

end Distinct

/-! ## Mentions

Declaring counts the fluents, and numbers that are cut down only get smaller.  So whatever an
action mentions is declared, even where fluents share numbers. -/

/-- Everything that is mentioned is a fluent, even if numbers are cut down. -/
theorem toNat_standing_lt {x : Fin n} {place : Option (Fin n)} (h : place ≠ some x) :
    (standing n x place).toNat < n * (n + 1) := by
  rw [standing_eq]
  exact Nat.lt_of_le_of_lt (Nat.mod_le _ _) (standingNumber_lt h)

theorem toNat_clear_lt (x : Fin n) : (clear n x).toNat < n * (n + 1) :=
  Nat.lt_of_le_of_lt (Nat.mod_le _ _) (clearNumber_lt x)

theorem within_ofList {ids : List FluentId} {k : Nat} (h : ∀ f ∈ ids, f.toNat < k) :
    (FluentSet.ofList ids).Within k := fun f hf => h f (FluentSet.mem_ofList.1 hf)

theorem within_operator {k : Nat} {name : String} {needs adds deletes : List FluentId}
    (hneeds : ∀ f ∈ needs, f.toNat < k) (hadds : ∀ f ∈ adds, f.toNat < k)
    (hdeletes : ∀ f ∈ deletes, f.toNat < k) : (operator name needs adds deletes).Within k where
  precondition := ⟨within_ofList hneeds, within_ofList (by simp)⟩
  guards := by
    intro e he
    obtain rfl := List.mem_singleton.1 he
    exact ⟨fun f hf => absurd hf (FluentSet.not_mem_empty f),
      fun f hf => absurd hf (FluentSet.not_mem_empty f)⟩
  effects := by
    intro e he
    obtain rfl := List.mem_singleton.1 he
    exact ⟨within_ofList hadds, within_ofList hdeletes⟩

theorem Transfer.within_action (t : Transfer n) (name : String) :
    (t.action name).Within (n * (n + 1)) := by
  have hclear : ∀ place : Option (Fin n), ∀ f ∈ clearing n place, f.toNat < n * (n + 1) :=
    fun place f hf => by
      obtain ⟨z, -, rfl⟩ := mem_clearing.1 hf
      exact toNat_clear_lt z
  have hsource := toNat_standing_lt t.source_ne_self
  have htarget := toNat_standing_lt t.target_ne_self
  exact within_operator
    (List.forall_mem_cons.2 ⟨hsource, List.forall_mem_cons.2 ⟨toNat_clear_lt _, hclear _⟩⟩)
    (List.forall_mem_cons.2 ⟨htarget, hclear _⟩) (List.forall_mem_cons.2 ⟨hsource, hclear _⟩)

/-! ## Start and goal -/

/-- The place of a block in the tower of the goal: the next block, or the table for the last. -/
def next (x : Fin n) : Option (Fin n) := if h : x.val + 1 < n then some ⟨x + 1, h⟩ else none

theorem next_ne_self (x : Fin n) : next x ≠ some x := by
  rw [next]
  split
  · exact fun h => Nat.succ_ne_self x (congrArg Fin.val (Option.some.inj h))
  · exact nofun

theorem mem_initial_iff {f : FluentId} : f ∈ (initial n).positive ↔
    ∃ x : Fin n, standing n x none = f ∨ clear n x = f := by
  rw [initial, InitialState.ofLists, FluentSet.mem_ofList, List.mem_append, List.mem_map,
    List.mem_map]
  simp only [List.mem_range, Fin.exists_iff, exists_or]
  exact or_congr (exists_congr fun x => exists_prop.symm) (exists_congr fun x => exists_prop.symm)

theorem mem_goal_iff {f : FluentId} : f ∈ (goal n).positive ↔
    ∃ x : Fin n, standing n x (next x) = f := by
  rw [goal, Condition.ofLists, FluentSet.mem_ofList, List.mem_append, List.mem_map]
  simp only [List.mem_range]
  constructor
  · rintro (⟨x, hx, rfl⟩ | hlast)
    · have hx' : x + 1 < n := by omega
      exact ⟨⟨x, by omega⟩, by rw [next, dif_pos hx']; rfl⟩
    · split at hlast
      · cases hlast
      · obtain rfl := List.mem_singleton.1 hlast
        have hlast' : ¬ n - 1 + 1 < n := by omega
        exact ⟨⟨n - 1, by omega⟩, by rw [next, dif_neg hlast']; rfl⟩
  · rintro ⟨x, rfl⟩
    by_cases hx : x.val + 1 < n
    · exact .inl ⟨x, by omega, by rw [next, dif_pos hx]; rfl⟩
    · have hlast : n - 1 = x := by omega
      rw [next, dif_neg hx, if_neg (by omega), hlast]
      exact .inr List.mem_cons_self

theorem not_mem_goal_negative (f : FluentId) : f ∉ (goal n).negative := by
  rw [goal, Condition.ofLists, FluentSet.mem_ofList]
  exact List.not_mem_nil

/-! ## The problem -/

/-- The problem is the blocks world with `n` blocks. -/
structure IsWorld (n : Nat) (p : Problem) : Prop where
  fluents_eq : p.fluents.toList = fluentNames n
  actions_eq : p.actions.toList = actions n
  initial_eq : p.initial = initial n
  goal_eq : p.goal = goal n

/-- **The generator never fails.** -/
theorem exists_world (n : Nat) : ∃ p, world n = .ok p ∧ IsWorld n p := by
  have hactions : ∀ a ∈ actions n, Declared (fluentNames n).length a.mentions := fun a ha => by
    obtain ⟨t, name, rfl⟩ := exists_transfer_of_mem_actions ha
    rw [Action.declared_mentions_iff, length_fluentNames]
    exact t.within_action name
  have hinit : Declared (fluentNames n).length (initial n).mentions := by
    rw [InitialState.declared_mentions_iff, length_fluentNames]
    refine ⟨fun f hf => ?_, within_ofList (by simp)⟩
    obtain ⟨x, rfl | rfl⟩ := mem_initial_iff.1 hf
    · exact toNat_standing_lt nofun
    · exact toNat_clear_lt x
  have hgoal : Declared (fluentNames n).length (goal n).mentions := by
    rw [Condition.declared_mentions_iff, length_fluentNames]
    refine ⟨fun f hf => ?_, fun f hf => absurd hf (not_mem_goal_negative f)⟩
    obtain ⟨x, rfl⟩ := mem_goal_iff.1 hf
    exact toNat_standing_lt (next_ne_self x)
  obtain ⟨p, hp, hparts⟩ :=
    Problem.exists_assemble (nodup_fluentNames n) hactions hinit hgoal
  exact ⟨p, hp, hparts.1, hparts.2.1, hparts.2.2.1, hparts.2.2.2⟩

theorem length_actions (n : Nat) : (actions n).length = n * n * (n - 1) := by
  have hblock : ∀ x ∈ List.range n, ((others n x).flatMap fun y =>
      ((others n x).filter fun z => z ≠ y).map (move n x y) ++
        [moveToTable n x y, moveFromTable n x y]).length = (n - 1) * n := fun x hx => by
    rw [length_flatMap_of_forall fun y hy => ?_, length_others (List.mem_range.1 hx)]
    -- There is another block, so there are at least two.
    obtain ⟨hy', hyx⟩ := mem_others.1 hy
    have hx' := List.mem_range.1 hx
    have hlen := length_filter_ne (nodup_others n x) hy
    rw [length_others hx'] at hlen
    rw [List.length_append, List.length_map, hlen, List.length_cons, List.length_singleton]
    omega
  rw [actions, length_flatMap_of_forall hblock, List.length_range]
  ring

namespace IsWorld

variable {p : Problem}

theorem numFluents_eq (h : IsWorld n p) : p.numFluents = n * (n + 1) := by
  rw [Problem.numFluents, ← Array.length_toList, h.fluents_eq, length_fluentNames]

theorem numActions_eq (h : IsWorld n p) : p.numActions = n * n * (n - 1) := by
  rw [Problem.numActions, ← Array.length_toList, h.actions_eq, length_actions]

theorem mem_actions (h : IsWorld n p) {a : Action} : a ∈ p.actions ↔ a ∈ actions n := by
  rw [← Array.mem_toList_iff, h.actions_eq]

section Names

variable (h : IsWorld n p) (hn : n * (n + 1) ≤ UInt32.size)

include h hn

/-- A fluent has the name that stands at its number. -/
theorem fluentName?_ofNat {i : Nat} (hi : i < n * (n + 1)) :
    p.fluentName? (.ofNat i) = (fluentNames n)[i]? := by
  rw [Problem.fluentName?, FluentId.toNat_ofNat (Nat.lt_of_lt_of_le hi hn), ← h.fluents_eq,
    Array.getElem?_toList]

theorem fluentName?_ontable (x : Fin n) :
    p.fluentName? (ontable x) = some ("ontable(" ++ blockName x ++ ")") :=
  (h.fluentName?_ofNat hn (standingNumber_lt (Option.some_ne_none x).symm)).trans
    (getElem?_fluentNames_ontable x.isLt)

theorem fluentName?_clear (x : Fin n) :
    p.fluentName? (clear n x) = some ("clear(" ++ blockName x ++ ")") :=
  (h.fluentName?_ofNat hn (clearNumber_lt x)).trans (getElem?_fluentNames_clear x.isLt)

theorem fluentName?_on {x y : Fin n} (hne : y ≠ x) :
    p.fluentName? (on n x y) = some ("on(" ++ blockName x ++ "," ++ blockName y ++ ")") :=
  (h.fluentName?_ofNat hn (standingNumber_lt fun e => hne (Option.some.inj e))).trans
    (getElem?_fluentNames_on x.isLt y.isLt fun e => hne (Fin.ext e))

end Names

end IsWorld

end SnapshotPlan.Blocks
