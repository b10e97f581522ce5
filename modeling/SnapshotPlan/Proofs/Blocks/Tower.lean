import SnapshotPlan.Proofs.Blocks.Arrangement
import SnapshotPlan.Proofs.Blocks.Generator

/-!
# Building the tower

The tower of the goal is built from below: each block is put on the next one, the last but one
first.  That takes one action for each block but the last, and there is no quicker way, since an
action raises one block from the table at most.

## What is here

* `Shows.entails_goal_iff` — **the goal holds in the pictures of the tower** and in no others.
* `stacking` — the actions that build the tower, and `IsWorld.exists_runs_stacking`: they do.
* `generate_stacking` — **the tower can be built, and not with fewer actions.**
-/

set_option autoImplicit false

namespace SnapshotPlan.Blocks

variable {n : Nat}

/-! ## Towers

`tower n m` has the blocks from `m` on in a tower and those before it on the table, so building
goes from `tower n (n - 1)`, which is flat, down to `tower n 0`. -/

theorem next_eq_some_iff {x y : Fin n} : next x = some y ↔ x.val + 1 = y := by
  rw [next]
  constructor
  · intro h
    split at h
    · exact congrArg Fin.val (Option.some.inj h)
    · cases h
  · intro h
    have hx : x.val + 1 < n := h ▸ y.isLt
    rw [dif_pos hx]
    exact congrArg some (Fin.ext h)

theorem next_eq_none_iff {x : Fin n} : next x = none ↔ n ≤ x.val + 1 := by
  rw [next]
  split
  · next hx => exact iff_of_false (Option.some_ne_none _) (Nat.not_le.2 hx)
  · next hx => exact iff_of_true rfl (Nat.not_lt.1 hx)

namespace Arrangement

/-- The blocks from the `m`-th on make up a tower; the others stand on the table. -/
def tower (n m : Nat) : Arrangement n where
  below := fun x => if m ≤ x then next x else none
  single := by
    intro x y z hx hy
    rw [Option.ite_none_right_eq_some, next_eq_some_iff] at hx hy
    exact Fin.ext (Nat.succ.inj (hx.2.trans hy.2.symm))
  grounded := by
    refine ⟨fun x => n - x, fun {x y} hxy => ?_⟩
    rw [Option.ite_none_right_eq_some, next_eq_some_iff] at hxy
    exact Nat.sub_lt_sub_left x.isLt (hxy.2 ▸ Nat.lt_succ_self _)

theorem below_tower_eq_some_iff {m : Nat} {x y : Fin n} :
    (tower n m).below x = some y ↔ m ≤ x ∧ x.val + 1 = y := by
  rw [tower, Option.ite_none_right_eq_some, next_eq_some_iff]

theorem below_tower_zero (x : Fin n) : (tower n 0).below x = next x := by
  simp only [tower, Nat.zero_le, if_true]

/-- Before anything is built all blocks stand on the table. -/
theorem tower_pred (n : Nat) : tower n (n - 1) = flat n :=
  Arrangement.ext (funext fun x => ite_eq_right_iff.2 fun hx => next_eq_none_iff.2 (by omega))

/-- The next block can be put on the tower. -/
theorem canPut_tower {m : Nat} (hm : m + 1 < n) :
    (tower n (m + 1)).CanPut ⟨m, Nat.lt_of_succ_lt hm⟩ (some ⟨m + 1, hm⟩) where
  free := fun y hy => by
    obtain ⟨hle, hval⟩ := below_tower_eq_some_iff.1 hy
    have hlt : y.val < m := Nat.lt_of_succ_le (Nat.le_of_eq hval)
    exact Nat.lt_asymm hlt hle
  ne_self := fun h => Nat.succ_ne_self m (congrArg Fin.val (Option.some.inj h))
  target_free := by
    intro z hz y hy
    obtain rfl := Option.some.inj hz
    obtain ⟨hle, hval⟩ := below_tower_eq_some_iff.1 hy
    exact absurd (Nat.succ.inj hval) (Nat.ne_of_gt hle)

theorem put_tower {m : Nat} (hm : m + 1 < n) :
    (tower n (m + 1)).put _ _ (canPut_tower hm) = tower n m := by
  refine Arrangement.ext (funext fun x => ?_)
  rw [below_put]
  split
  · next hx => exact (below_tower_eq_some_iff.2 (by rw [hx]; exact ⟨Nat.le_refl m, rfl⟩)).symm
  · next hx =>
    have hne : x.val ≠ m := fun e => hx (Fin.ext e)
    have hiff : m + 1 ≤ x.val ↔ m ≤ x.val := by omega
    simp only [tower, hiff]

/-- All blocks of a tower but the last are raised. -/
theorem pred_le_raised {A : Arrangement n} (h : ∀ x, A.below x = next x) : n - 1 ≤ A.raised := by
  cases n with
  | zero => exact Nat.zero_le _
  | succ m =>
    calc m = (Finset.univ.image (Fin.castSucc : Fin m → Fin (m + 1))).card := by
          rw [Finset.card_image_of_injective _ (Fin.castSucc_injective m), Finset.card_univ,
            Fintype.card_fin]
      _ ≤ A.raised := Finset.card_le_card fun x hx => by
          obtain ⟨y, -, rfl⟩ := Finset.mem_image.1 hx
          rw [Finset.mem_filter, h, Ne, next_eq_none_iff, Fin.val_castSucc]
          exact ⟨Finset.mem_univ _, by omega⟩

end Arrangement

/-! ## The goal -/

/-- **The goal holds in the pictures of the tower** and in no others. -/
theorem Shows.entails_goal_iff {s : State} {A : Arrangement n} (h : Shows s A) :
    s.entails (goal n) = true ↔ ∀ x, A.below x = next x := by
  have hpositive : (∀ f ∈ (goal n).positive.toList, f ∈ s.facts) ↔ ∀ x, A.below x = next x := by
    simp only [← h.standing_iff (next_ne_self _), State.isSet_iff]
    exact ⟨fun hall x => hall _ (mem_goal_iff.2 ⟨x, rfl⟩), fun hall f hf => by
      obtain ⟨x, rfl⟩ := mem_goal_iff.1 hf
      exact hall x⟩
  rw [State.entails_iff, Condition.HoldsIn, hpositive]
  exact and_iff_left fun f hf => absurd hf (not_mem_goal_negative f)

/-! ## The plan

The plan is followed by induction on the blocks that are not yet in the tower.  That none is
shorter comes from counting raised blocks along any run. -/

/-- Each block is put on the next one, the last but one first. -/
def stacking (n : Nat) : List Action :=
  (List.range (n - 1)).reverse.map fun x => moveFromTable n x (x + 1)

theorem moveFromTable_mem_actions {m : Nat} (hm : m + 1 < n) :
    moveFromTable n m (m + 1) ∈ actions n :=
  mem_actions_iff.2 ⟨m, Nat.lt_of_succ_lt hm, m + 1, ⟨hm, Nat.succ_ne_self m⟩, .inr (.inr rfl)⟩

namespace IsWorld

variable {p : Problem}

/-- **The tower grows block by block.** -/
theorem exists_runs_tower (hn : n * (n + 1) ≤ UInt32.size) (h : IsWorld n p) : ∀ {m : Nat},
    m ≤ n - 1 → ∀ {s : State}, Shows s (.tower n m) →
      ∃ t, p.Runs ((List.range m).reverse.map fun x => moveFromTable n x (x + 1)) s t ∧
        Shows t (.tower n 0) := by
  intro m
  induction m with
  | zero => exact fun _ {s} hs => ⟨s, .nil s, hs⟩
  | succ m ih =>
    intro hle s hs
    have hm : m + 1 < n := by omega
    let t : Transfer n := ⟨⟨m, Nat.lt_of_succ_lt hm⟩, none, some ⟨m + 1, hm⟩, nofun,
      (Arrangement.canPut_tower hm).ne_self, nofun⟩
    have hsource : (Arrangement.tower n (m + 1)).below t.block = t.source :=
      if_neg (Nat.not_succ_le_self m)
    have hafter := hs.after hn t (moveFromTable n m (m + 1)).name hsource
      (Arrangement.canPut_tower hm)
    rw [Arrangement.put_tower hm] at hafter
    obtain ⟨s', hruns, hs'⟩ := ih (Nat.le_of_succ_le hle) hafter
    rw [List.range_succ, List.reverse_append, List.map_append]
    exact ⟨s', .cons (h.mem_actions.2 (moveFromTable_mem_actions hm))
      ((hs.entails_iff t _).2 ⟨hsource, Arrangement.canPut_tower hm⟩) hruns, hs'⟩

/-- **The plan builds the tower.** -/
theorem exists_runs_stacking (hn : n * (n + 1) ≤ UInt32.size) (h : IsWorld n p) :
    ∃ s, p.Runs (stacking n) p.initialFullState s ∧ s.entails p.goal = true := by
  obtain ⟨s, hruns, hs⟩ := h.exists_runs_tower hn (Nat.le_refl (n - 1))
    ((Arrangement.tower_pred n).symm ▸ h.shows_initial hn)
  refine ⟨s, hruns, ?_⟩
  rw [h.goal_eq, hs.entails_goal_iff]
  exact Arrangement.below_tower_zero

/-- **No plan is shorter.** -/
theorem pred_le_length (hn : n * (n + 1) ≤ UInt32.size) (h : IsWorld n p) {as : List Action}
    {s : State} (hruns : p.Runs as p.initialFullState s) (hgoal : s.entails p.goal = true) :
    n - 1 ≤ as.length := by
  obtain ⟨B, hB, hraised⟩ := h.exists_shows hn hruns (h.shows_initial hn)
  rw [h.goal_eq, hB.entails_goal_iff] at hgoal
  have htower := Arrangement.pred_le_raised hgoal
  rw [Arrangement.raised_flat, Nat.zero_add] at hraised
  exact Nat.le_trans htower hraised

/-- The tower stands from the start only if there is nothing to be stacked. -/
theorem goalHoldsInitially_iff (hn : n * (n + 1) ≤ UInt32.size) (h : IsWorld n p) :
    p.goalHoldsInitially = true ↔ n ≤ 1 := by
  rw [Problem.goalHoldsInitially, h.goal_eq, (h.shows_initial hn).entails_goal_iff]
  constructor
  · intro hall
    by_contra hlt
    have hfirst := next_eq_none_iff.1 (hall ⟨0, by omega⟩).symm
    exact hlt hfirst
  · exact fun hle x => (next_eq_none_iff.2 (by omega)).symm

end IsWorld

/-- **The tower can be built, and not with fewer actions** than there are blocks to be put on
others; only where there is none does it stand from the start. -/
theorem generate_stacking (n : Nat) (hn : n * (n + 1) < 2 ^ 32) :
    ∃ p, generate n = .ok p ∧
      (∃ s, p.Runs (stacking n) p.initialFullState s ∧ s.entails p.goal = true) ∧
      (∀ {as : List Action} {s : State}, p.Runs as p.initialFullState s →
        s.entails p.goal = true → n - 1 ≤ as.length) ∧
      (p.goalHoldsInitially = true ↔ n ≤ 1) := by
  obtain ⟨p, hp, hworld⟩ := exists_generate n
  have hn' := Nat.le_of_lt hn
  exact ⟨p, hp, hworld.exists_runs_stacking hn', hworld.pred_le_length hn',
    hworld.goalHoldsInitially_iff hn'⟩

/-- Four blocks take three actions. -/
theorem generate_stacking_four : 4 * (4 + 1) < 2 ^ 32 ∧ ∃ p, generate 4 = .ok p ∧
    (∃ s, p.Runs [moveFromTable 4 2 3, moveFromTable 4 1 2, moveFromTable 4 0 1]
      p.initialFullState s ∧ s.entails p.goal = true) ∧
    (∀ {as : List Action} {s : State}, p.Runs as p.initialFullState s →
      s.entails p.goal = true → 3 ≤ as.length) ∧
    p.goalHoldsInitially = false := by
  obtain ⟨p, hp, hplan, hshortest, hinitially⟩ := generate_stacking 4 (by decide)
  exact ⟨by decide, p, hp, hplan, hshortest, Bool.eq_false_iff.2 fun h => absurd (hinitially.1 h)
    (by decide)⟩

end SnapshotPlan.Blocks
