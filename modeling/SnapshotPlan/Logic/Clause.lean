import SnapshotPlan.Logic.Literal

/-!
# Clauses and what it means to satisfy them

A clause is a disjunction of literals, in the order in which they were given, repeats included.
An `Assignment` gives every variable a truth value; `Clause.Holds` and `Satisfies` say when it
makes a clause and a list of clauses true.  The empty clause holds nowhere (`not_holds_nil`).
-/

set_option autoImplicit false

namespace SnapshotPlan

/-- A disjunction of literals. -/
structure Clause where
  lits : List Lit
  deriving DecidableEq

/-! ## Clauses as numbers and as text -/

namespace Clause

/-- The literals of the clause as signed numbers. -/
def toInts (c : Clause) : List Int := c.lits.map Lit.toInt

/-- The clause with the given literals, if every number is one. -/
def ofInts? (xs : List Int) : Option Clause := (xs.mapM Lit.ofInt?).map Clause.mk

/-- The largest variable of the clause; the empty clause has none. -/
def maxVar? (c : Clause) : Option Nat := (c.lits.map (·.var.id)).max?

/-- The literals separated by blanks, in parentheses. -/
def render (c : Clause) : String := "(" ++ " ".intercalate (c.lits.map Lit.render) ++ ")"

end Clause

/-! ## Truth -/

/-- A truth value for every variable. -/
abbrev Assignment := Var → Bool

/-- The assignment gives the literal's variable the literal's sign. -/
def Lit.Holds (σ : Assignment) (l : Lit) : Prop := σ l.var = l.positive

/-- Some literal of the clause holds. -/
def Clause.Holds (σ : Assignment) (c : Clause) : Prop := ∃ l ∈ c.lits, l.Holds σ

/-- Every clause of the list holds. -/
def Satisfies (σ : Assignment) (cs : List Clause) : Prop := ∀ c ∈ cs, c.Holds σ

instance (σ : Assignment) (l : Lit) : Decidable (l.Holds σ) :=
  inferInstanceAs (Decidable (_ = _))

instance (σ : Assignment) (c : Clause) : Decidable (c.Holds σ) :=
  inferInstanceAs (Decidable (∃ l ∈ c.lits, l.Holds σ))

instance (σ : Assignment) (cs : List Clause) : Decidable (Satisfies σ cs) :=
  inferInstanceAs (Decidable (∀ c ∈ cs, c.Holds σ))

theorem Lit.holds_negate_iff (σ : Assignment) (l : Lit) : l.negate.Holds σ ↔ ¬ l.Holds σ := by
  rcases l with ⟨v, _ | _⟩ <;> simp [Lit.Holds, Lit.negate]

theorem Clause.not_holds_nil (σ : Assignment) : ¬ Clause.Holds σ ⟨[]⟩ := by
  simp [Clause.Holds]

end SnapshotPlan
