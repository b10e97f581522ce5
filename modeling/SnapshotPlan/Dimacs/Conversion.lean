import SnapshotPlan.Dimacs.Raw
import SnapshotPlan.Dimacs.Reader

/-!
# Converting what was read

A raw formula is converted literal by literal, in 32-bit numbers: it is refused if it has too many
variables for them, or a variable without a number.

## What is here

* `RawFormula.convert` — the way back from `Formula.raw`, with `Misfit` for what cannot be
  converted.
* `readConverted` — reading in two stages, where the reader hands over the raw form.
-/

set_option autoImplicit false

namespace SnapshotPlan

namespace Dimacs

/-- Why a formula cannot be converted. -/
inductive Misfit where
  | tooManyVariables
  | invalidVariable
  deriving DecidableEq

/-- The wording of the refusal. -/
def Misfit.message : Misfit → String
  | tooManyVariables => "Too many variables"
  | invalidVariable => "Invalid variable"

/-- The literal of the variable at the position, of which only the low 32 bits count. -/
def RawLit.convert (l : RawLit) : Except Misfit Lit :=
  match Var.ofId? (UInt32.ofNat l.index + 1).toNat with
  | some v => .ok ⟨v, l.positive⟩
  | none => .error .invalidVariable

/-- The formula with the same clauses, added one after another. -/
def RawFormula.convert (f : RawFormula) : Except Misfit Formula :=
  if f.varCount < UInt32.size then
    f.clauses.foldlM (fun g c => (c.mapM RawLit.convert).map fun ls => g.add ⟨ls⟩)
      (Formula.declaring f.varCount)
  else .error .tooManyVariables

end Dimacs

/-- Reads a text and converts what was read.  Either stage may refuse. -/
def Dimacs.readConverted (bytes : List UInt8) : Except (Fault ⊕ Misfit) Formula :=
  match read bytes with
  | .error fault => .error (.inl fault)
  | .ok f => f.raw.convert.mapError .inr

end SnapshotPlan
