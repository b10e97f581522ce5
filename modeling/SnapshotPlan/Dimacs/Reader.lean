import SnapshotPlan.Dimacs.Header
import SnapshotPlan.Logic.Formula

/-!
# Reading a formula in DIMACS form

The text is read byte by byte.  Literals are separated by blanks and line ends, a zero ends a
clause, and clauses may run over several lines.  A line that starts with `c` is a comment, and one
line may start with `p` and be the header: anywhere in the text, even inside a clause.

## The rules

* At the start of a line: `c`, `p` (while there is no header yet), or what may stand between
  literals.
* Between literals: a blank, a line end (line feed or carriage return), a minus sign or a digit.
* After a minus sign: a digit.
* Inside a literal: a digit, a blank or a line end.  A literal is refused at the digit with which
  it exceeds `maxVar`.  A minus sign before zero has no effect.
* Comments and the header run up to the next line end.

`Reading.step` is one byte, `Reading.finish` the end of the text, and `read` the whole.  A literal
under way is bounded in the type of its value, so every finished literal has its variable.
-/

set_option autoImplicit false

namespace SnapshotPlan.Dimacs

/-! ## The state of reading

The reader goes byte by byte and never back.  What it has to remember of a line is the mode, and
a literal under way carries its bound in its type. -/

/-- Where in a line the reader stands. -/
inductive Mode where
  /-- Nothing read on this line yet. -/
  | lineStart
  /-- After a blank, between literals. -/
  | blank
  /-- After a minus sign. -/
  | sign
  /-- Inside a literal with the given sign, which has the given value so far. -/
  | literal (negative : Bool) (value : Fin (maxVar + 1))
  /-- Inside a comment. -/
  | comment
  /-- Inside the header; its bytes so far, the last first. -/
  | header (bytes : List UInt8)

/-- All that the bytes read so far leave behind. -/
structure Reading where
  /-- The number of the line, from one. -/
  line : Nat
  mode : Mode
  /-- The literals of the clause under way, the last first. -/
  pending : List Lit
  /-- The finished clauses, the last first. -/
  closed : List Clause
  header : Option Header

namespace Reading

/-- Before the first byte. -/
def start : Reading := ⟨1, .lineStart, [], [], none⟩

/-- The byte ends a line. -/
def isLineEnd (b : UInt8) : Bool := b == 10 || b == 13

/-- The byte is a decimal digit. -/
def isDigit (b : UInt8) : Bool := 48 ≤ b && b ≤ 57

/-- Adds a digit to a literal with the given sign and value so far. -/
def digit (r : Reading) (negative : Bool) (value : Nat) (b : UInt8) : Except Fault Reading :=
  let next := 10 * value + (b.toNat - 48)
  if h : next < maxVar + 1 then .ok { r with mode := .literal negative ⟨next, h⟩ }
  else .error (.literalTooLarge r.line next)

/-- Finishes a literal: zero closes the clause under way, any other value extends it. -/
def closeLiteral (r : Reading) (negative : Bool) (value : Fin (maxVar + 1)) : Reading :=
  if h : value.val = 0 then { r with pending := [], closed := ⟨r.pending.reverse⟩ :: r.closed }
  else
    let var : Var := ⟨value.val, Nat.pos_of_ne_zero h, by
      have := value.isLt
      simp only [maxVar, Var.maxId] at *
      omega⟩
    { r with pending := ⟨var, !negative⟩ :: r.pending }

/-- Finishes the header line, whose bytes are given last first. -/
def closeHeader (r : Reading) (bytes : List UInt8) : Except Fault Reading :=
  (Header.read r.line bytes.reverse).map fun h => { r with header := some h }

/-- A byte between literals, where a comment or the header may start if `fresh`. -/
def between (r : Reading) (fresh : Bool) (b : UInt8) : Except Fault Reading :=
  if isLineEnd b then .ok { r with mode := .lineStart }
  else if b = 32 then .ok { r with mode := .blank }
  else if b = 45 then .ok { r with mode := .sign }
  else if isDigit b then r.digit false 0 b
  else if fresh && b == 99 then .ok { r with mode := .comment }
  else if fresh && b == 112 && r.header.isNone then .ok { r with mode := .header [b] }
  else .error (.unexpectedInput r.line b)

/-- One byte, in the mode at hand. -/
def advance (r : Reading) (b : UInt8) : Except Fault Reading :=
  match r.mode with
  | .lineStart => r.between true b
  | .blank => r.between false b
  | .sign => if isDigit b then r.digit true 0 b else .error (.unexpectedInput r.line b)
  | .literal negative value =>
    if isDigit b then r.digit negative value b
    else if isLineEnd b then .ok { r.closeLiteral negative value with mode := .lineStart }
    else if b = 32 then .ok { r.closeLiteral negative value with mode := .blank }
    else .error (.unexpectedInput r.line b)
  | .comment => if isLineEnd b then .ok { r with mode := .lineStart } else .ok r
  | .header bytes =>
    if isLineEnd b then (r.closeHeader bytes).map fun r => { r with mode := .lineStart }
    else .ok { r with mode := .header (b :: bytes) }

/-- One byte.  A line feed counts towards the line that it opens. -/
def step (r : Reading) (b : UInt8) : Except Fault Reading :=
  advance (if b = 10 then { r with line := r.line + 1 } else r) b

/-- The formula that the clauses and the header make, if they agree. -/
def formula (r : Reading) : Except Fault Formula :=
  let declared := (r.header.map Header.numVars).getD 0
  let f := Formula.ofClauses declared r.closed.reverse
  match r.header with
  | none => .ok f
  | some h =>
    if f.numVars ≠ h.numVars then .error (.varCount f.numVars h.numVars)
    else if f.clauses.length ≠ h.numClauses then
      .error (.clauseCount f.clauses.length h.numClauses)
    else .ok f

/-- The end of the text: a literal or the header may end here, an open clause may not. -/
def finish (r : Reading) : Except Fault Formula :=
  let closed : Except Fault Reading := match r.mode with
    | .literal negative value => .ok (r.closeLiteral negative value)
    | .header bytes => r.closeHeader bytes
    | _ => .ok r
  match closed with
  | .error e => .error e
  | .ok r => if r.pending.isEmpty then r.formula else .error (.unterminatedClause r.line)

end Reading

/-- Reads a formula from the bytes of a text. -/
def read (bytes : List UInt8) : Except Fault Formula :=
  match bytes.foldlM Reading.step Reading.start with
  | .error e => .error e
  | .ok r => r.finish

end SnapshotPlan.Dimacs
