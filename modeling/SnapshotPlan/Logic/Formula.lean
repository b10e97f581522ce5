import SnapshotPlan.Logic.Clause

/-!
# Formulas

A formula is a conjunction of clauses over the variables `1, …, numVars`.  It may declare
variables that no clause uses, and it never uses one that it does not declare: adding a clause
raises `numVars` to the largest variable of the clause.
-/

set_option autoImplicit false

namespace SnapshotPlan

/-- A conjunction of clauses over declared variables. -/
structure Formula where
  numVars : Nat
  clauses : List Clause
  declared : ∀ c ∈ clauses, ∀ l ∈ c.lits, l.var.id ≤ numVars
  deriving DecidableEq

namespace Formula

/-- No clause yet, and `n` variables declared. -/
def declaring (n : Nat) : Formula := ⟨n, [], by simp⟩

/-- The largest of `n` and the variables of the clause. -/
def reach (n : Nat) (c : Clause) : Nat := c.lits.foldl (fun m l => max m l.var.id) n

theorem le_foldl_max (ls : List Lit) : ∀ n : Nat,
    n ≤ ls.foldl (fun m l => max m l.var.id) n ∧
      ∀ l ∈ ls, l.var.id ≤ ls.foldl (fun m l => max m l.var.id) n := by
  induction ls with
  | nil => intro n; simp
  | cons k ks ih =>
    intro n
    obtain ⟨h1, h2⟩ := ih (max n k.var.id)
    refine ⟨Nat.le_trans (Nat.le_max_left _ _) h1, fun l hl => ?_⟩
    rcases List.mem_cons.1 hl with rfl | hl
    · exact Nat.le_trans (Nat.le_max_right _ _) h1
    · exact h2 l hl

theorem le_reach (n : Nat) (c : Clause) : n ≤ reach n c := (le_foldl_max c.lits n).1

theorem var_le_reach (n : Nat) {c : Clause} {l : Lit} (h : l ∈ c.lits) : l.var.id ≤ reach n c :=
  (le_foldl_max c.lits n).2 l h

/-- The formula with one more clause at the end. -/
def add (f : Formula) (c : Clause) : Formula where
  numVars := reach f.numVars c
  clauses := f.clauses ++ [c]
  declared := by
    intro d hd l hl
    rcases List.mem_append.1 hd with hd | hd
    · exact Nat.le_trans (f.declared d hd l hl) (le_reach _ _)
    · rw [List.mem_singleton] at hd
      subst hd
      exact var_le_reach _ hl

/-- The largest of `n` and the variables of the clauses. -/
def reachAll (n : Nat) (cs : List Clause) : Nat := cs.foldl reach n

theorem le_reachAll (cs : List Clause) : ∀ n : Nat, n ≤ reachAll n cs ∧
    ∀ c ∈ cs, ∀ l ∈ c.lits, l.var.id ≤ reachAll n cs := by
  induction cs with
  | nil => intro n; simp [reachAll]
  | cons d ds ih =>
    intro n
    obtain ⟨h1, h2⟩ := ih (reach n d)
    refine ⟨Nat.le_trans (le_reach n d) h1, fun c hc l hl => ?_⟩
    rcases List.mem_cons.1 hc with rfl | hc
    · exact Nat.le_trans (var_le_reach n hl) h1
    · exact h2 c hc l hl

/-- The formula that declares `n` variables and holds the given clauses in order. -/
def ofClauses (n : Nat) (cs : List Clause) : Formula :=
  ⟨reachAll n cs, cs, (le_reachAll cs n).2⟩

@[ext] theorem ext {f g : Formula} (h1 : f.numVars = g.numVars) (h2 : f.clauses = g.clauses) :
    f = g := by
  cases f; cases g; cases h1; cases h2; rfl

/-- Adding clauses one at a time and all at once give the same formula. -/
theorem foldl_add_eq_ofClauses (n : Nat) (cs : List Clause) :
    cs.foldl add (declaring n) = ofClauses n cs := by
  have key : ∀ (cs : List Clause) (f : Formula),
      (cs.foldl add f).numVars = reachAll f.numVars cs ∧
        (cs.foldl add f).clauses = f.clauses ++ cs := by
    intro cs
    induction cs with
    | nil => intro f; simp [reachAll]
    | cons c cs ih =>
      intro f
      obtain ⟨h1, h2⟩ := ih (f.add c)
      exact ⟨by simpa [reachAll, add] using h1, by simpa [add] using h2⟩
  obtain ⟨h1, h2⟩ := key cs (declaring n)
  exact Formula.ext (by simpa [declaring, ofClauses] using h1)
    (by simpa [declaring, ofClauses] using h2)

end Formula

end SnapshotPlan
