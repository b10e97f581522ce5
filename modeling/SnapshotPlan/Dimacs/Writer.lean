import SnapshotPlan.Dimacs.Raw
import SnapshotPlan.Text.Decimal

/-!
# Writing a formula in DIMACS form

The first line is the header `p cnf V C`, with the numbers of variables and clauses.  Each clause
follows on a line of its own: its literals, a blank after each, and a closing zero.  The form is
plain ASCII, so it is produced as bytes, and the text has one character per byte.

What is written is a raw formula, whose variables are counted from zero; a formula is converted to
one first.
-/

set_option autoImplicit false

namespace SnapshotPlan

open Text

namespace Dimacs

/-- The bytes of an ASCII text. -/
def ascii (s : String) : List UInt8 := s.toList.map fun c => UInt8.ofNat c.toNat

/-- The byte of a decimal digit. -/
def digitByte (d : Nat) : UInt8 := UInt8.ofNat (48 + d)

/-- A number in decimal digits. -/
def natBytes (n : Nat) : List UInt8 := (Decimal.digits n).map digitByte

/-- A literal: a minus sign if it denies its variable, then the number of the variable. -/
def litBytes (l : RawLit) : List UInt8 :=
  if l.positive then natBytes (l.index + 1) else 45 :: natBytes (l.index + 1)

/-- A clause: each literal and a blank, then zero and a line feed. -/
def clauseBytes (c : List RawLit) : List UInt8 :=
  (c.flatMap fun l => litBytes l ++ [32]) ++ [48, 10]

/-- The header line for so many variables and clauses. -/
def headerBytes (numVars numClauses : Nat) : List UInt8 :=
  ascii "p cnf " ++ natBytes numVars ++ [32] ++ natBytes numClauses ++ [10]

/-- A raw formula in DIMACS form. -/
def RawFormula.toDimacs (g : RawFormula) : List UInt8 :=
  headerBytes g.varCount g.clauses.length ++ g.clauses.flatMap clauseBytes

end Dimacs

/-- The formula in DIMACS form. -/
def Formula.toDimacs (f : Formula) : List UInt8 := f.raw.toDimacs

/-- The text whose characters have the numbers of the bytes. -/
def Dimacs.textOfBytes (bytes : List UInt8) : String :=
  String.ofList (bytes.map fun b => Char.ofNat b.toNat)

/-- The formula in DIMACS form, as text. -/
def Formula.dimacsText (f : Formula) : String := Dimacs.textOfBytes f.toDimacs

end SnapshotPlan
