import Mathlib.Logic.Relation
import SnapshotPlan.Proofs.Blocks.Arrangement
import SnapshotPlan.Proofs.Blocks.Generator

/-!
# Blocks obey the laws of the table

No run of actions leads to a state in which a block hangs in the air, stands in two places, shares
its place on another block, or stands on itself by way of others; and a block is clear just if
nothing stands on it.

## What is here

* `Consistent` — the laws, in terms of the fluents of a state.
* `Shows.consistent` — the picture of an arrangement obeys them.
* `generate_consistent` — **every state that can be reached obeys them.**
-/

set_option autoImplicit false

namespace SnapshotPlan.Blocks

variable {n : Nat} {s : State}

/-- The first block stands on the second, another one. -/
def StandsOn (n : Nat) (s : State) (x y : Fin n) : Prop := y ≠ x ∧ s.isSet (on n x y) = true

/-- Every block has one support, no block carries two, the clear blocks are those that carry none,
and blocks do not stand on each other in a circle. -/
structure Consistent (n : Nat) (s : State) : Prop where
  support : ∀ x : Fin n,
    (s.isSet (ontable x) = true ∧ ∀ y, ¬ StandsOn n s x y) ∨
      (s.isSet (ontable x) = false ∧ ∃! y, StandsOn n s x y)
  single : ∀ x y z : Fin n, StandsOn n s x z → StandsOn n s y z → x = y
  clear_iff : ∀ x : Fin n, s.isSet (clear n x) = true ↔ ¬ ∃ y, StandsOn n s y x
  acyclic : ∀ x, ¬ Relation.TransGen (StandsOn n s) x x

namespace Shows

variable {A : Arrangement n}

theorem ontable_iff (h : Shows s A) (x : Fin n) :
    s.isSet (ontable x) = true ↔ A.below x = none := h.standing_iff (Option.some_ne_none x).symm

theorem standsOn_iff (h : Shows s A) {x y : Fin n} : StandsOn n s x y ↔ A.below x = some y := by
  constructor
  · rintro ⟨hyx, hon⟩
    exact (h.standing_iff fun e => hyx (Option.some.inj e)).1 hon
  · intro hbelow
    have hyx : some y ≠ some x := hbelow ▸ A.below_ne_self x
    exact ⟨fun e => hyx (congrArg some e), (h.standing_iff hyx).2 hbelow⟩

/-- Whoever climbs down does not come back. -/
theorem acyclic (h : Shows s A) (x : Fin n) : ¬ Relation.TransGen (StandsOn n s) x x := by
  obtain ⟨height, hheight⟩ := A.grounded
  have hdown : ∀ {y}, Relation.TransGen (StandsOn n s) x y → height y < height x := fun hpath => by
    induction hpath with
    | single hstep => exact hheight (h.standsOn_iff.1 hstep)
    | tail _ hstep ih => exact Nat.lt_trans (hheight (h.standsOn_iff.1 hstep)) ih
  exact fun hcycle => Nat.lt_irrefl _ (hdown hcycle)

/-- **The picture of an arrangement obeys the laws.** -/
theorem consistent (h : Shows s A) : Consistent n s where
  support := by
    intro x
    simp only [h.standsOn_iff]
    cases hbelow : A.below x with
    | none => exact .inl ⟨(h.ontable_iff x).2 hbelow, nofun⟩
    | some y =>
      refine .inr ⟨?_, y, rfl, fun z hz => (Option.some.inj hz).symm⟩
      rw [Bool.eq_false_iff, Ne, h.ontable_iff, hbelow]
      exact Option.some_ne_none y
  single := fun x y z hx hy => A.single (h.standsOn_iff.1 hx) (h.standsOn_iff.1 hy)
  clear_iff := by
    intro x
    simp only [h.clear_iff, h.standsOn_iff, Arrangement.Free, ne_eq, not_exists]
  acyclic := h.acyclic

end Shows

/-- **Every state that can be reached obeys the laws**, as long as there are numbers for all
fluents.  The laws are about the fluents with the names that they should have. -/
theorem generate_consistent (n : Nat) (hn : n * (n + 1) < 2 ^ 32) :
    ∃ p, generate n = .ok p ∧
      (∀ x : Fin n, p.fluentName? (ontable x) = some ("ontable(" ++ blockName x ++ ")") ∧
        p.fluentName? (clear n x) = some ("clear(" ++ blockName x ++ ")") ∧
        ∀ y : Fin n, y ≠ x →
          p.fluentName? (on n x y) = some ("on(" ++ blockName x ++ "," ++ blockName y ++ ")")) ∧
      ∀ {as : List Action} {s : State}, p.Runs as p.initialFullState s → Consistent n s := by
  obtain ⟨p, hp, hworld⟩ := exists_generate n
  have hn' := Nat.le_of_lt hn
  refine ⟨p, hp, fun x => ⟨hworld.fluentName?_ontable hn' x, hworld.fluentName?_clear hn' x,
    fun y => hworld.fluentName?_on hn'⟩, fun {as s} hruns => ?_⟩
  obtain ⟨B, hB, -⟩ := hworld.exists_shows hn' hruns (hworld.shows_initial hn')
  exact hB.consistent

/-- The first block is put on the second, from there on the third, and back on the table. -/
theorem generate_consistent_three : 3 * (3 + 1) < 2 ^ 32 ∧ ∃ p s, generate 3 = .ok p ∧
    p.Runs [moveFromTable 3 0 1, move 3 0 1 2, moveToTable 3 0 2] p.initialFullState s ∧
      Consistent 3 s := by
  obtain ⟨p, hp, hworld⟩ := exists_generate 3
  have hinitial : p.initialFullState = .ofInitial 12 (initial 3) := by
    rw [Problem.initialFullState, hworld.numFluents_eq, hworld.initial_eq]
  have hruns : ∃ s, p.Runs [moveFromTable 3 0 1, move 3 0 1 2, moveToTable 3 0 2]
      p.initialFullState s := by
    rw [hinitial]
    exact ⟨_, .cons (hworld.mem_actions.2 (by decide +kernel)) (by decide +kernel)
      (.cons (hworld.mem_actions.2 (by decide +kernel)) (by decide +kernel)
        (.cons (hworld.mem_actions.2 (by decide +kernel)) (by decide +kernel) (.nil _)))⟩
  obtain ⟨s, hruns⟩ := hruns
  obtain ⟨p', hp', -, hconsistent⟩ := generate_consistent 3 (by decide)
  obtain rfl : p = p' := Except.ok.inj (hp.symm.trans hp')
  exact ⟨by decide, p, s, hp, hruns, hconsistent hruns⟩

end SnapshotPlan.Blocks
