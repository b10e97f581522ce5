/-!
# Reading UTF-8

Bytes are read one character at a time.  Where the bytes at hand start no character, the longest
run of bytes that could have begun one (at least a single byte) is skipped as one unreadable
piece, and reading goes on after it.

## What is here

* `Utf8.pieces` — the characters and unreadable pieces (`none`) of a byte sequence, in order.
* `Utf8.decode?` — the text, if every piece is a character.
* `Utf8.decodeLossy` — the text with U+FFFD in place of each unreadable piece.
-/

set_option autoImplicit false

namespace SnapshotPlan.Text.Utf8

/-- What the first byte of a longer character promises: how many bytes follow it, between which
bounds the first of them lies, and the bits of the code point that it carries itself. -/
structure Lead where
  tails : Nat
  low : UInt8
  high : UInt8
  bits : Nat

/-- The promise of a byte that starts a character of two to four bytes.  The bounds keep out
overlong forms, surrogates and numbers above U+10FFFF. -/
def lead? (b : UInt8) : Option Lead :=
  if 0xC2 ≤ b ∧ b ≤ 0xDF then some ⟨1, 0x80, 0xBF, b.toNat - 0xC0⟩
  else if b = 0xE0 then some ⟨2, 0xA0, 0xBF, 0⟩
  else if b = 0xED then some ⟨2, 0x80, 0x9F, 0xD⟩
  else if 0xE1 ≤ b ∧ b ≤ 0xEF then some ⟨2, 0x80, 0xBF, b.toNat - 0xE0⟩
  else if b = 0xF0 then some ⟨3, 0x90, 0xBF, 0⟩
  else if b = 0xF4 then some ⟨3, 0x80, 0x8F, 4⟩
  else if 0xF1 ≤ b ∧ b ≤ 0xF3 then some ⟨3, 0x80, 0xBF, b.toNat - 0xF0⟩
  else none

/-- Reads the `n` bytes still owed, the next between `low` and `high`, onto the bits at hand.
Returns the code point, or none at the first byte that does not fit, and the bytes left. -/
def tails : (n : Nat) → (low high : UInt8) → (bits : Nat) → List UInt8 → Option Nat × List UInt8
  | 0, _, _, bits, rest => (some bits, rest)
  | _ + 1, _, _, _, [] => (none, [])
  | n + 1, low, high, bits, b :: rest =>
    if low ≤ b ∧ b ≤ high then tails n 0x80 0xBF (bits * 64 + (b.toNat - 0x80)) rest
    else (none, b :: rest)

theorem length_tails_le (n : Nat) (low high : UInt8) (bits : Nat) (bs : List UInt8) :
    (tails n low high bits bs).2.length ≤ bs.length := by
  induction n generalizing low high bits bs with
  | zero => simp [tails]
  | succ n ih =>
    cases bs with
    | nil => simp [tails]
    | cons b rest =>
      simp only [tails]
      split
      · exact Nat.le_trans (ih _ _ _ _) (by simp)
      · simp

/-- The characters of a byte sequence in order, `none` for each unreadable piece. -/
def pieces : List UInt8 → List (Option Char)
  | [] => []
  | b :: rest =>
    if b < 0x80 then some (Char.ofNat b.toNat) :: pieces rest
    else
      match lead? b with
      | none => none :: pieces rest
      | some l =>
        let read := tails l.tails l.low l.high l.bits rest
        read.1.map Char.ofNat :: pieces read.2
termination_by bs => bs.length
decreasing_by
  · simp
  · simp
  · have := length_tails_le l.tails l.low l.high l.bits rest
    simp only [List.length_cons]
    omega

/-- The text, if the bytes are UTF-8 throughout. -/
def decode? (bytes : List UInt8) : Option String := ((pieces bytes).mapM id).map String.ofList

/-- The text with the replacement character U+FFFD for each unreadable piece. -/
def decodeLossy (bytes : List UInt8) : String :=
  String.ofList ((pieces bytes).map fun p => p.getD (Char.ofNat 0xFFFD))

end SnapshotPlan.Text.Utf8
