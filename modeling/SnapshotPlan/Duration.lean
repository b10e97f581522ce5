/-!
# Lengths of time

A length of time is a whole number of nanoseconds.  It is written in the largest of the units
second, millisecond, microsecond and nanosecond that it reaches, with as many decimal places as
are needed to write it exactly and no more: `1.5s`, `5ms`, `1.5µs`, `0ns`.
-/

set_option autoImplicit false

namespace SnapshotPlan

/-- A length of time in nanoseconds. -/
structure Duration where
  nanos : Nat
  deriving DecidableEq

namespace Duration

/-- So many seconds. -/
def ofSecs (n : Nat) : Duration := ⟨n * 1000000000⟩

/-- The first `places` decimal places of `part / unit`, less trailing zeros, for `part < unit` and
`unit` equal to ten to the power `places`. -/
def decimals : (places : Nat) → (unit part : Nat) → List Char
  | 0, _, _ => []
  | places + 1, unit, part =>
    if part = 0 then []
    else Nat.digitChar (part * 10 / unit) :: decimals places unit (part * 10 % unit)

/-- A number of nanoseconds in a unit of ten to the power `places` nanoseconds, exactly. -/
def inUnit (places unit nanos : Nat) : String :=
  let fraction := decimals places unit (nanos % unit)
  toString (nanos / unit) ++ (if fraction.isEmpty then "" else "." ++ String.ofList fraction)

/-- The length of time in its largest unit. -/
def render (d : Duration) : String :=
  if 1000000000 ≤ d.nanos then inUnit 9 1000000000 d.nanos ++ "s"
  else if 1000000 ≤ d.nanos then inUnit 6 1000000 d.nanos ++ "ms"
  else if 1000 ≤ d.nanos then inUnit 3 1000 d.nanos ++ "µs"
  else inUnit 0 1 d.nanos ++ "ns"

end Duration

end SnapshotPlan
