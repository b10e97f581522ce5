import SnapshotPlan.Oracle.Decision

/-!
# Deciding by splitting

A list of clauses is decided by splitting on its first literal.  Making a literal true removes the
clauses that it satisfies and its opposite from the others, and leaves fewer literals behind
(`weight_assign_lt`), so the search ends by itself.

* `satisfies_making`: an assignment that satisfies what is left satisfies all clauses once it makes
  the literal true.
* `satisfies_assign`: an assignment under which the literal holds satisfies what is left if it
  satisfies all clauses.

With these two facts `Decision.bySplitting` carries its own proof: its answer is an assignment that
satisfies the clauses, or the knowledge that there is none.
-/

set_option autoImplicit false

namespace SnapshotPlan.Decision

/-! ## Making a literal true -/

/-- The assignment changed so that the literal holds. -/
def making (l : Lit) (σ : Assignment) : Assignment :=
  fun v => if v = l.var then l.positive else σ v

theorem holds_making (l : Lit) (σ : Assignment) : l.Holds (making l σ) := if_pos rfl

/-- What is left of a clause once the literal is true: nothing if the clause has the literal, and
else the clause less the opposite literal. -/
def restrict (l : Lit) (c : Clause) : Option Clause :=
  if l ∈ c.lits then none else some ⟨c.lits.filter fun k => k ≠ l.negate⟩

/-- What is left to be satisfied once the literal is true. -/
def assign (l : Lit) (cs : List Clause) : List Clause := cs.filterMap (restrict l)

theorem mem_assign {l : Lit} {cs : List Clause} {c : Clause} (hc : c ∈ cs) (hl : l ∉ c.lits) :
    ⟨c.lits.filter fun k => k ≠ l.negate⟩ ∈ assign l cs :=
  List.mem_filterMap.2 ⟨c, hc, if_neg hl⟩

theorem satisfies_making {l : Lit} {cs : List Clause} {σ : Assignment}
    (h : Satisfies σ (assign l cs)) : Satisfies (making l σ) cs := by
  intro c hc
  by_cases hl : l ∈ c.lits
  · exact ⟨l, hl, holds_making l σ⟩
  · obtain ⟨k, hk, holds⟩ := h _ (mem_assign hc hl)
    obtain ⟨hk, hne⟩ := List.mem_filter.1 hk
    have hne : k ≠ l.negate := of_decide_eq_true hne
    have hvar : k.var ≠ l.var := by
      intro hv
      by_cases hs : k.positive = l.positive
      · exact hl (Lit.ext hv hs ▸ hk)
      · exact hne (Lit.ext hv (Bool.eq_not.2 hs))
    exact ⟨k, hk, (if_neg hvar).trans holds⟩

theorem satisfies_assign {l : Lit} {cs : List Clause} {σ : Assignment} (hl : l.Holds σ)
    (h : Satisfies σ cs) : Satisfies σ (assign l cs) := by
  intro d hd
  obtain ⟨c, hc, hd⟩ := List.mem_filterMap.1 hd
  unfold restrict at hd
  split at hd
  · cases hd
  · cases hd
    obtain ⟨k, hk, holds⟩ := h c hc
    refine ⟨k, List.mem_filter.2 ⟨hk, decide_eq_true ?_⟩, holds⟩
    rintro rfl
    exact (Lit.holds_negate_iff σ l).1 holds hl

/-! ## Why the search ends

Making a literal true drops the clauses that have it and the opposite literal from the others.
The number of literals never grows, and it shrinks if either occurs. -/

/-- The number of literals in all clauses. -/
def weight : List Clause → Nat
  | [] => 0
  | c :: cs => c.lits.length + weight cs

theorem assign_cons_of_mem {l : Lit} {c : Clause} (cs : List Clause) (h : l ∈ c.lits) :
    assign l (c :: cs) = assign l cs := by
  simp [assign, restrict, h]

theorem assign_cons_of_not_mem {l : Lit} {c : Clause} (cs : List Clause) (h : l ∉ c.lits) :
    assign l (c :: cs) = ⟨c.lits.filter fun k => k ≠ l.negate⟩ :: assign l cs := by
  simp [assign, restrict, h]

theorem weight_assign_le (l : Lit) (cs : List Clause) : weight (assign l cs) ≤ weight cs := by
  induction cs with
  | nil => exact Nat.le_refl _
  | cons c cs ih =>
    by_cases h : l ∈ c.lits
    · rw [assign_cons_of_mem cs h]
      exact Nat.le_trans ih (Nat.le_add_left ..)
    · rw [assign_cons_of_not_mem cs h]
      exact Nat.add_le_add (List.length_filter_le ..) ih

/-- Making a literal true that occurs in the first clause, on either side, leaves fewer
literals. -/
theorem weight_assign_lt {l : Lit} {c : Clause} (cs : List Clause)
    (hl : l ∈ c.lits ∨ l.negate ∈ c.lits) : weight (assign l (c :: cs)) < weight (c :: cs) := by
  have hle := weight_assign_le l cs
  by_cases h : l ∈ c.lits
  · rw [assign_cons_of_mem cs h]
    exact Nat.lt_of_le_of_lt hle (Nat.lt_add_of_pos_left (List.length_pos_of_mem h))
  · rw [assign_cons_of_not_mem cs h]
    refine Nat.add_lt_add_of_lt_of_le ?_ hle
    exact List.length_filter_lt_length_iff_exists.2 ⟨l.negate, hl.resolve_left h, by simp⟩

/-! ## The search -/

/-- Decides the clauses by making the first literal true, and false if that does not help. -/
def bySplitting : (cs : List Clause) → Decision cs
  | [] => .satisfied (fun _ => false) fun _ hc => absurd hc List.not_mem_nil
  | ⟨[]⟩ :: _ => .refuted fun σ h => Clause.not_holds_nil σ (h _ List.mem_cons_self)
  | ⟨l :: ls⟩ :: cs =>
    match bySplitting (assign l (⟨l :: ls⟩ :: cs)) with
    | .satisfied σ h => .satisfied (making l σ) (satisfies_making h)
    | .refuted never =>
      match bySplitting (assign l.negate (⟨l :: ls⟩ :: cs)) with
      | .satisfied σ h => .satisfied (making l.negate σ) (satisfies_making h)
      | .refuted never' => .refuted fun σ h =>
        if hl : l.Holds σ then never σ (satisfies_assign hl h)
        else never' σ (satisfies_assign ((Lit.holds_negate_iff σ l).2 hl) h)
termination_by cs => weight cs
decreasing_by
  · exact weight_assign_lt cs (.inl List.mem_cons_self)
  · exact weight_assign_lt cs (.inr (by rw [Lit.negate_negate]; exact List.mem_cons_self))

end SnapshotPlan.Decision
