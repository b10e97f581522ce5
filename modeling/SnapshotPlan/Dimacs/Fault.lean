/-!
# Why a DIMACS text is refused

Faults found while reading carry the line, counted from one, on which reading stopped; a line feed
already counts as part of the line that it opens.  Faults found at the end compare the formula
with its header.
-/

set_option autoImplicit false

namespace SnapshotPlan.Dimacs

/-- The largest variable that a DIMACS text may name or declare. -/
abbrev maxVar : Nat := 268435456

/-- The reasons to refuse a text. -/
inductive Fault where
  /-- A byte that cannot stand where it stands. -/
  | unexpectedInput (line : Nat) (byte : UInt8)
  /-- A literal or a declared number of variables beyond `maxVar`. -/
  | literalTooLarge (line : Nat) (value : Nat)
  /-- A header line that does not read `p cnf`, two numbers. -/
  | invalidHeader (line : Nat) (header : String)
  /-- The text ended inside a clause. -/
  | unterminatedClause (line : Nat)
  /-- The clauses use variables that the header does not declare. -/
  | varCount (found declared : Nat)
  /-- The number of clauses is not the one in the header. -/
  | clauseCount (found declared : Nat)
  deriving DecidableEq

/-- The wording of the fault.  A byte is shown as the character of the same number. -/
def Fault.message : Fault → String
  | unexpectedInput line byte =>
    "line " ++ toString line ++ ": Unexpected character in DIMACS CNF input: '"
      ++ String.singleton (Char.ofNat byte.toNat) ++ "'"
  | literalTooLarge line value =>
    "line " ++ toString line ++ ": Literal index is too large: " ++ toString value ++ "..."
  | invalidHeader line header => "line " ++ toString line ++ ": Invalid header syntax: " ++ header
  | unterminatedClause line => "line " ++ toString line ++ ": Unterminated clause"
  | varCount found declared =>
    "Formula has " ++ toString found ++ " variables while the header specifies "
      ++ toString declared ++ " variables"
  | clauseCount found declared =>
    "Formula has " ++ toString found ++ " clauses while the header specifies "
      ++ toString declared ++ " clauses"

end SnapshotPlan.Dimacs
