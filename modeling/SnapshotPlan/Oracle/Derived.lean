import SnapshotPlan.Logic.Code

/-!
# Clauses derived by resolution

A clause is derived from a list of clauses if it holds wherever all of them do, and a `Derived` is
such a clause by its type: it is made from a clause of the list (`Derived.ofMember`) or by
resolving two derived clauses on a literal (`Derived.resolve`).  Whoever works with them may pick
steps by any rule of thumb and cannot derive anything wrong.

The main statement is `not_satisfies_of_codes_nil`: once the empty clause is derived, no assignment
satisfies the list.
-/

set_option autoImplicit false

namespace SnapshotPlan

/-- A clause that holds wherever the clauses of the list do, as increasing codes of its
literals. -/
structure Derived (cs : List Clause) where
  codes : List Nat
  implied : ∀ σ, Satisfies σ cs → ∃ k ∈ codes, Code.Holds σ k

namespace Derived

/-- The numbers without those equal to their predecessor. -/
def distinct : List Nat → List Nat
  | [] => []
  | [k] => [k]
  | j :: k :: ks => if j = k then distinct (k :: ks) else j :: distinct (k :: ks)

theorem mem_distinct {i : Nat} {ks : List Nat} : i ∈ distinct ks ↔ i ∈ ks := by
  fun_induction distinct ks with
  | case1 => rfl
  | case2 => rfl
  | case3 k ks ih => simp [ih]
  | case4 j k ks _ ih => simp [ih]

/-- The increasing codes of the literals of a clause. -/
def codesOf (c : Clause) : List Nat :=
  distinct ((c.lits.map Lit.code).mergeSort fun j k => decide (j ≤ k))

theorem exists_mem_codesOf {σ : Assignment} {c : Clause} (h : c.Holds σ) :
    ∃ k ∈ codesOf c, Code.Holds σ k := by
  obtain ⟨l, hl, holds⟩ := h
  refine ⟨l.code, ?_, Code.holds_code_iff.2 holds⟩
  rw [codesOf, mem_distinct, List.mem_mergeSort]
  exact List.mem_map_of_mem hl

variable {cs : List Clause}

/-- A clause of the list is derived. -/
def ofMember (c : Clause) (h : c ∈ cs) : Derived cs :=
  ⟨codesOf c, fun _ hσ => exists_mem_codesOf (hσ c h)⟩

/-- The numbers of the first list except `p` and those of the second except `q`, in increasing
order if both lists are. -/
def merge (p q : Nat) : List Nat → List Nat → List Nat
  | [], ks => ks.filter (· ≠ q)
  | js, [] => js.filter (· ≠ p)
  | j :: js, k :: ks =>
    if j = p then merge p q js (k :: ks)
    else if k = q then merge p q (j :: js) ks
    else if j < k then j :: merge p q js (k :: ks)
    else if k < j then k :: merge p q (j :: js) ks
    else j :: merge p q js ks
termination_by js ks => js.length + ks.length

theorem mem_merge {p q i : Nat} {js ks : List Nat} :
    i ∈ merge p q js ks ↔ i ∈ js ∧ i ≠ p ∨ i ∈ ks ∧ i ≠ q := by
  fun_induction merge p q js ks <;> grind

/-- Resolves two derived clauses: the first less the literal `p`, together with the second less
its opposite. -/
def resolve (a b : Derived cs) (p : Nat) : Derived cs where
  codes := merge p (Code.flip p) a.codes b.codes
  implied := fun σ hσ => by
    obtain ⟨j, hj, holds⟩ := a.implied σ hσ
    by_cases hp : j = p
    · obtain ⟨k, hk, holds'⟩ := b.implied σ hσ
      refine ⟨k, mem_merge.2 (.inr ⟨hk, fun e => ?_⟩), holds'⟩
      exact Code.not_holds_flip (hp ▸ holds) (e ▸ holds')
    · exact ⟨j, mem_merge.2 (.inl ⟨hj, hp⟩), holds⟩

/-- Resolves on the literal if the first clause has it, and leaves the clause alone otherwise. -/
def drop (a b : Derived cs) (p : Nat) : Derived cs :=
  if a.codes.contains p then a.resolve b p else a

/-- **The empty clause refutes.**  If it is derived, no assignment satisfies the list. -/
theorem not_satisfies_of_codes_nil (d : Derived cs) (h : d.codes = []) (σ : Assignment) :
    ¬ Satisfies σ cs := by
  intro hσ
  obtain ⟨k, hk, _⟩ := d.implied σ hσ
  rw [h] at hk
  cases hk

end Derived

end SnapshotPlan
