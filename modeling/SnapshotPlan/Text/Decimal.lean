/-!
# Decimal digits of a natural number

`Decimal.digits` writes a number, most significant digit first and without leading zeros, and
`digits_lt` says that every digit is one.
-/

set_option autoImplicit false

namespace SnapshotPlan.Text.Decimal

/-- The decimal digits of a number, most significant first; zero has the single digit zero. -/
def digits (n : Nat) : List Nat := if n < 10 then [n] else digits (n / 10) ++ [n % 10]

theorem digits_lt {n d : Nat} (h : d ∈ digits n) : d < 10 := by
  fun_induction digits n with
  | case1 n hn => simp only [List.mem_singleton] at h; omega
  | case2 n hn ih =>
    rcases List.mem_append.1 h with h | h
    · exact ih h
    · simp only [List.mem_singleton] at h; omega

end SnapshotPlan.Text.Decimal
