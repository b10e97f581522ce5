import SnapshotPlan.Dimacs.Fault
import SnapshotPlan.Text.Blank
import SnapshotPlan.Text.Number
import SnapshotPlan.Text.Utf8

/-!
# The header of a DIMACS text

The header line declares how many variables and how many clauses follow: `p cnf 3 2`.  After the
letter `p` and one blank come exactly three words, separated by any white space: `cnf` and the two
numbers, each below 2⁶⁴.
-/

set_option autoImplicit false

namespace SnapshotPlan.Dimacs

/-- What a header declares. -/
structure Header where
  numVars : Nat
  numClauses : Nat
  numVars_le : numVars ≤ maxVar
  deriving DecidableEq

/-- Reads the header from its line.  Too many variables are reported before the number of clauses
is looked at; any other departure from the form makes the whole line invalid. -/
def Header.read (line : Nat) (bytes : List UInt8) : Except Fault Header :=
  let text := Text.Utf8.decodeLossy bytes
  let invalid := Fault.invalidHeader line text
  match text.toList with
  | 'p' :: ' ' :: rest =>
    match Text.words (String.ofList rest) with
    | "cnf" :: vars :: more =>
      match Text.readBelow? UInt64.size vars with
      | none => .error invalid
      | some v =>
        if h : v ≤ maxVar then
          match more with
          | [clauses] =>
            match Text.readBelow? UInt64.size clauses with
            | some c => .ok ⟨v, c, h⟩
            | none => .error invalid
          | _ => .error invalid
        else .error (.literalTooLarge line v)
    | _ => .error invalid
  | _ => .error invalid

end SnapshotPlan.Dimacs
