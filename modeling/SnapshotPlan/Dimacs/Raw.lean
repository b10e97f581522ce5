import SnapshotPlan.Logic.Formula

/-!
# Formulas with variables counted from zero

Whoever writes or lexes a text may count variables from zero and as far as memory goes.  This is the
form in which a formula is handed over to be written, and in which it comes back when it is read.

`RawFormula` is a formula whose variables are positions, and `Formula.raw` is that form of a
formula.  The number of variables is declared first and then found again clause by clause.
-/

set_option autoImplicit false

namespace SnapshotPlan

namespace Dimacs

/-- A literal whose variable is a position, counted from zero. -/
structure RawLit where
  index : Nat
  positive : Bool
  deriving DecidableEq

/-- A formula over the positions below `varCount`. -/
structure RawFormula where
  varCount : Nat
  clauses : List (List RawLit)
  deriving DecidableEq

/-- The least number that is not below `n` and has all positions of the clause below it. -/
def RawLit.reach (n : Nat) (c : List RawLit) : Nat := c.foldl (fun m l => max m (l.index + 1)) n

/-- The formula over `n` positions, or more if the given clauses need more. -/
def RawFormula.ofClauses (n : Nat) (cs : List (List RawLit)) : RawFormula :=
  ⟨cs.foldl RawLit.reach n, cs⟩

end Dimacs

/-- The literal with its variable as a position. -/
def Lit.raw (l : Lit) : Dimacs.RawLit := ⟨l.var.index, l.positive⟩

/-- The formula with its variables as positions. -/
def Formula.raw (f : Formula) : Dimacs.RawFormula :=
  .ofClauses f.numVars (f.clauses.map fun c => c.lits.map Lit.raw)

end SnapshotPlan
