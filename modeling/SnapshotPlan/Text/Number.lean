/-!
# Reading whole numbers

A whole number is written in decimal digits, at least one, with leading zeros allowed.  A plus
sign may stand in front; a minus sign only where negative numbers are wanted.  No blanks, no
separators, and a number outside the wanted range is refused as a whole.
-/

set_option autoImplicit false

namespace SnapshotPlan.Text

/-- The value of a decimal digit of the ASCII set. -/
def digit? (c : Char) : Option Nat :=
  if '0' ≤ c ∧ c ≤ '9' then some (c.toNat - '0'.toNat) else none

/-- The number written by digits, most significant first, after the digits that gave `n`. -/
def digitsOnto (n : Nat) : List Char → Option Nat
  | [] => some n
  | c :: cs => (digit? c).bind fun d => digitsOnto (10 * n + d) cs

/-- The number written by a nonempty run of digits. -/
def digits? (cs : List Char) : Option Nat := if cs.isEmpty then none else digitsOnto 0 cs

/-- A number below `bound`, perhaps with a plus sign. -/
def readBelow? (bound : Nat) (s : String) : Option Nat :=
  let magnitude := match s.toList with
    | '+' :: cs => digits? cs
    | cs => digits? cs
  magnitude.filter (· < bound)

/-- A number from `low` to `high`, perhaps with a sign. -/
def readBetween? (low high : Int) (s : String) : Option Int :=
  let value := match s.toList with
    | '+' :: cs => (digits? cs).map Int.ofNat
    | '-' :: cs => (digits? cs).map fun n => -(n : Int)
    | cs => (digits? cs).map Int.ofNat
  value.filter fun x => low ≤ x && x ≤ high

end SnapshotPlan.Text
