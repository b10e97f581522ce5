import Mathlib.Data.Fintype.Card
import SnapshotPlan.Proofs.Blocks.Generation
import SnapshotPlan.Proofs.World.States

/-!
# Arrangements of blocks

A state of a blocks world is a picture of an arrangement: every block stands in one place, no two
blocks stand on the same one, and whoever climbs down from a block gets to the table.  States that
are no picture of anything exist, but no run of actions leads there.

## What is here

* `Arrangement`, `Arrangement.put` — arrangements of blocks, and the one in which a free block was
  put in another place.
* `Shows` — the state is a picture of the arrangement.
* `Shows.entails_iff`, `Shows.after` — when a transfer is possible, and that **a transfer puts its
  block in its target**.
* `IsWorld.exists_shows` — **whatever is done, some arrangement is shown**, and every action raises
  one block from the table at most.
-/

set_option autoImplicit false

namespace SnapshotPlan.Blocks

variable {n : Nat}

/-! ## Arrangements -/

/-- What every block stands on: another block, or the table. -/
@[ext] structure Arrangement (n : Nat) where
  below : Fin n → Option (Fin n)
  single : ∀ {x y z : Fin n}, below x = some z → below y = some z → x = y
  grounded : ∃ height : Fin n → Nat, ∀ {x y : Fin n}, below x = some y → height y < height x

namespace Arrangement

variable {A : Arrangement n} {x y z : Fin n} {place : Option (Fin n)}

/-- Nothing stands on the block. -/
def Free (A : Arrangement n) (z : Fin n) : Prop := ∀ y, A.below y ≠ some z

theorem below_ne_self (A : Arrangement n) (x : Fin n) : A.below x ≠ some x := fun h => by
  obtain ⟨height, hheight⟩ := A.grounded
  exact Nat.lt_irrefl _ (hheight h)

/-- The block can be taken and put in the place. -/
structure CanPut (A : Arrangement n) (x : Fin n) (place : Option (Fin n)) : Prop where
  free : A.Free x
  ne_self : place ≠ some x
  target_free : ∀ z, place = some z → A.Free z

/-- The arrangement in which the block stands in the place, and all others as before. -/
def put (A : Arrangement n) (x : Fin n) (place : Option (Fin n)) (h : A.CanPut x place) :
    Arrangement n where
  below := Function.update A.below x place
  single := by
    intro y₁ y₂ z h₁ h₂
    rw [Function.update_apply] at h₁ h₂
    split at h₁ <;> split at h₂
    · next e₁ e₂ => exact e₁.trans e₂.symm
    · exact absurd h₂ (h.target_free z h₁ y₂)
    · exact absurd h₁ (h.target_free z h₂ y₁)
    · exact A.single h₁ h₂
  grounded := by
    obtain ⟨height, hheight⟩ := A.grounded
    -- Nothing stands on the block, so no other height depends on its own.
    refine ⟨Function.update height x (place.elim 0 fun z => height z + 1), fun {y z} hyz => ?_⟩
    by_cases hy : y = x
    · subst hy
      rw [Function.update_self] at hyz
      subst hyz
      rw [Function.update_self, Function.update_of_ne fun e => h.ne_self (congrArg some e)]
      exact Nat.lt_succ_self _
    · rw [Function.update_of_ne hy] at hyz
      have hz : z ≠ x := fun e => h.free y (hyz.trans (congrArg some e))
      rw [Function.update_of_ne hy, Function.update_of_ne hz]
      exact hheight hyz

theorem below_put (h : A.CanPut x place) (y : Fin n) :
    (A.put x place h).below y = if y = x then place else A.below y :=
  Function.update_apply ..

/-- The block that was taken away no longer stands on anything but its new place. -/
theorem free_put_iff (h : A.CanPut x place) :
    (A.put x place h).Free z ↔
      A.below x = some z ∧ place ≠ A.below x ∨ place ≠ some z ∧ A.Free z := by
  simp only [Free, below_put]
  constructor
  · intro hfree
    have hplace : place ≠ some z := by simpa only [if_true] using hfree x
    by_cases hx : A.below x = some z
    · exact .inl ⟨hx, hx ▸ hplace⟩
    · refine .inr ⟨hplace, fun y => ?_⟩
      by_cases hy : y = x
      · exact hy ▸ hx
      · simpa only [if_neg hy] using hfree y
  · rintro (⟨hx, hplace⟩ | ⟨hplace, hfree⟩) y
    · split
      · exact hx ▸ hplace
      · next hy => exact fun hyz => hy (A.single hyz hx)
    · split
      · exact hplace
      · exact hfree y

/-- All blocks stand on the table. -/
def flat (n : Nat) : Arrangement n where
  below := fun _ => none
  single := nofun
  grounded := ⟨fun _ => 0, nofun⟩

/-- The number of blocks that do not stand on the table. -/
def raised (A : Arrangement n) : Nat := (Finset.univ.filter fun x => A.below x ≠ none).card

theorem raised_flat (n : Nat) : (flat n).raised = 0 := by
  rw [raised, Finset.card_eq_zero, Finset.filter_eq_empty_iff]
  exact fun x _ h => h rfl

/-- One block raised at most. -/
theorem raised_put_le (h : A.CanPut x place) : (A.put x place h).raised ≤ A.raised + 1 := by
  refine Nat.le_trans (Finset.card_le_card fun y hy => ?_) (Finset.card_insert_le x _)
  rw [Finset.mem_insert, Finset.mem_filter]
  by_cases hyx : y = x
  · exact .inl hyx
  · rw [Finset.mem_filter, below_put, if_neg hyx] at hy
    exact .inr hy

end Arrangement

/-! ## Operators -/

theorem entails_operator_iff {s : State} {name : String} {needs adds deletes : List FluentId} :
    s.entails (operator name needs adds deletes).precondition = true ↔
      ∀ f ∈ needs, s.isSet f = true := by
  have hneeds : ∀ f, f ∈ (FluentSet.ofList needs).toList ↔ f ∈ needs := fun f =>
    FluentSet.mem_ofList
  simp only [State.entails_iff, operator, Condition.ofLists, Condition.HoldsIn, hneeds,
    State.isSet_iff]
  exact and_iff_left fun f hf => absurd (FluentSet.mem_ofList.1 hf) List.not_mem_nil

/-- What an operator deletes is false afterwards, unless it adds it, too. -/
theorem isSet_after_operator_iff {s : State} {name : String} {needs adds deletes : List FluentId}
    {f : FluentId} : (s.after (operator name needs adds deletes)).isSet f = true ↔
      f ∈ adds ∨ f ∉ deletes ∧ s.isSet f = true := by
  have hfiring : (operator name needs adds deletes).firing s.facts = [.ofLists adds deletes] := by
    have hguard : Condition.empty.HoldsIn s.facts := ⟨nofun, nofun⟩
    simp only [operator, Action.firing, List.filter_cons, hguard, decide_true, if_true,
      List.filter_nil, List.map_cons, List.map_nil]
  simp only [State.isSet_iff, State.facts_after, Action.mem_execute_iff, hfiring,
    List.mem_singleton, exists_eq_left, Effect.ofLists, FluentSet.mem_ofList]

/-! ## Pictures

A state has a bit for every fluent, and a picture has all of them right.  Moving a block changes
what is shown only where the block leaves and where it arrives. -/

/-- The state is a picture of the arrangement. -/
structure Shows (s : State) (A : Arrangement n) : Prop where
  standing_iff : ∀ {x : Fin n} {place : Option (Fin n)}, place ≠ some x →
    (s.isSet (standing n x place) = true ↔ A.below x = place)
  clear_iff : ∀ {x : Fin n}, s.isSet (clear n x) = true ↔ A.Free x

namespace Shows

variable {s : State} {A : Arrangement n}

/-- **A transfer is possible** if the block is where it is taken from, nothing stands on it, and
nothing stands on what it is put on. -/
theorem entails_iff (h : Shows s A) (t : Transfer n) (name : String) :
    s.entails (t.action name).precondition = true ↔
      A.below t.block = t.source ∧ A.CanPut t.block t.target := by
  have htarget : (∀ f ∈ clearing n t.target, s.isSet f = true) ↔
      ∀ z, t.target = some z → A.Free z := by
    simp only [← h.clear_iff, mem_clearing]
    exact ⟨fun hall z hz => hall _ ⟨z, hz, rfl⟩, fun hall f ⟨z, hz, hf⟩ => hf ▸ hall z hz⟩
  rw [Transfer.action, entails_operator_iff, List.forall_mem_cons, List.forall_mem_cons,
    h.standing_iff t.source_ne_self, h.clear_iff, htarget]
  exact and_congr_right fun _ =>
    ⟨fun hall => ⟨hall.1, t.target_ne_self, hall.2⟩, fun hput => ⟨hput.free, hput.target_free⟩⟩

/-- **A transfer puts its block in its target.** -/
theorem after (hn : n * (n + 1) ≤ UInt32.size) (h : Shows s A) (t : Transfer n) (name : String)
    (hsource : A.below t.block = t.source) (hput : A.CanPut t.block t.target) :
    Shows (s.after (t.action name)) (A.put t.block t.target hput) where
  standing_iff := by
    intro x place hplace
    have hclear : ∀ place', standing n x place ∉ clearing n place' := fun place' hmem => by
      obtain ⟨z, -, hz⟩ := mem_clearing.1 hmem
      exact standing_ne_clear hn hplace hz.symm
    rw [Transfer.action, isSet_after_operator_iff, List.mem_cons, List.mem_cons,
      or_iff_left (hclear _), or_iff_left (hclear _), standing_inj hn hplace t.target_ne_self,
      standing_inj hn hplace t.source_ne_self, h.standing_iff hplace, Arrangement.below_put]
    by_cases hx : x = t.block
    · subst hx
      simp only [true_and, if_true, hsource]
      refine ⟨fun hor => ?_, fun e => .inl e.symm⟩
      rcases hor with e | ⟨hne, e⟩
      · exact e.symm
      · exact absurd e.symm hne
    · simp only [hx, false_and, false_or, not_false_eq_true, true_and, if_false]
  clear_iff := by
    intro x
    have hstanding : ∀ {place : Option (Fin n)}, place ≠ some t.block →
        clear n x ≠ standing n t.block place := fun hplace => (standing_ne_clear hn hplace).symm
    have hclear : ∀ place, clear n x ∈ clearing n place ↔ place = some x := fun place => by
      simp only [mem_clearing, clear_inj hn, exists_eq_right]
    rw [Transfer.action, isSet_after_operator_iff, List.mem_cons, List.mem_cons,
      or_iff_right (hstanding t.target_ne_self), or_iff_right (hstanding t.source_ne_self),
      hclear, hclear, h.clear_iff, Arrangement.free_put_iff, hsource,
      and_iff_left t.target_ne_source]

end Shows

/-! ## Runs

The invariant of a run is that some arrangement is shown.  It holds at the start and every action
keeps it, being a transfer that the arrangement allows. -/

namespace IsWorld

variable {p : Problem}

/-- At the start all blocks stand on the table. -/
theorem shows_initial (hn : n * (n + 1) ≤ UInt32.size) (h : IsWorld n p) :
    Shows p.initialFullState (.flat n) := by
  have hset : ∀ f, p.initialFullState.isSet f = true ↔
      ∃ x : Fin n, standing n x none = f ∨ clear n x = f := fun f => by
    rw [State.isSet_iff, Problem.initialFullState, State.mem_facts_ofInitial, h.initial_eq,
      mem_initial_iff]
  refine ⟨fun {x place} hplace => ?_, fun {x} => ?_⟩
  · rw [hset]
    constructor
    · rintro ⟨y, hy | hy⟩
      · exact ((standing_inj hn (Option.some_ne_none y).symm hplace).1 hy).2
      · exact absurd hy.symm (standing_ne_clear hn hplace)
    · rintro rfl
      exact ⟨x, .inl rfl⟩
  · exact iff_of_true ((hset _).2 ⟨x, .inr rfl⟩) nofun

/-- **Whatever is done, some arrangement is shown**, and no more blocks are raised than there were
actions. -/
theorem exists_shows (hn : n * (n + 1) ≤ UInt32.size) (h : IsWorld n p) {as : List Action}
    {s t : State} (hruns : p.Runs as s t) : ∀ {A : Arrangement n}, Shows s A →
      ∃ B : Arrangement n, Shows t B ∧ B.raised ≤ A.raised + as.length := by
  induction hruns with
  | nil s => exact fun {A} hs => ⟨A, hs, Nat.le_refl _⟩
  | cons mem enabled _ ih =>
    intro A hs
    obtain ⟨transfer, name, rfl⟩ := exists_transfer_of_mem_actions (h.mem_actions.1 mem)
    obtain ⟨hsource, hput⟩ := (hs.entails_iff transfer name).1 enabled
    obtain ⟨B, ht, hB⟩ := ih (hs.after hn transfer name hsource hput)
    have hraised := Arrangement.raised_put_le hput
    refine ⟨B, ht, ?_⟩
    rw [List.length_cons]
    omega

end IsWorld
end SnapshotPlan.Blocks
