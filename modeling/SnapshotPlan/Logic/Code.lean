import SnapshotPlan.Logic.Clause

/-!
# Literals as small numbers

For tables indexed by literals, a literal is numbered twice its variable's position, plus one if
it denies the variable.  `Code.flip` is the opposite literal, and `Code.Holds` says what a code
means; `Code.holds_code_iff` is that it means the same as the literal, and
`Code.not_holds_flip` that a code and its opposite never hold together.
-/

set_option autoImplicit false

namespace SnapshotPlan

/-- The number of a literal in tables. -/
def Lit.code (l : Lit) : Nat := if l.positive then 2 * l.var.index else 2 * l.var.index + 1

namespace Code

/-- The code of the opposite literal. -/
def flip (k : Nat) : Nat := if k % 2 = 0 then k + 1 else k - 1

/-- The literal with this code holds. -/
def Holds (σ : Assignment) (k : Nat) : Prop :=
  ∃ v : Var, v.index = k / 2 ∧ σ v = decide (k % 2 = 0)

theorem holds_code_iff {σ : Assignment} {l : Lit} : Holds σ l.code ↔ l.Holds σ := by
  have hdiv : l.code / 2 = l.var.index := by unfold Lit.code; split <;> omega
  have hmod : decide (l.code % 2 = 0) = l.positive := by
    unfold Lit.code
    cases l.positive <;> simp
  unfold Holds Lit.Holds
  rw [hdiv, hmod]
  constructor
  · rintro ⟨v, hv, h⟩
    rwa [Var.index_inj.1 hv] at h
  · exact fun h => ⟨l.var, rfl, h⟩

theorem not_holds_flip {σ : Assignment} {k : Nat} (h : Holds σ k) : ¬ Holds σ (flip k) := by
  rintro ⟨w, hw, hf⟩
  obtain ⟨v, hv, hk⟩ := h
  have hdiv : flip k / 2 = k / 2 := by unfold flip; split <;> omega
  have hvw : w = v := Var.index_inj.1 (by rw [hw, hv, hdiv])
  rw [hvw, hk, decide_eq_decide] at hf
  unfold flip at hf
  split at hf <;> omega

end Code

end SnapshotPlan
