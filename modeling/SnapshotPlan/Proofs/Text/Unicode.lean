import Mathlib.Algebra.Group.Nat.Defs
import SnapshotPlan.Proofs.Traversal
import SnapshotPlan.Text.Utf8

/-!
# Reading and writing UTF-8

A character is written as its code point in groups of six bits, one group to a byte, with the rest
of the bits in the byte before them.  Reading goes through the bytes one at a time.  Both are put in
terms of `tailBytes`, and are inverse then.

## What is here

* `tailBytes`, `tails_eq_some_iff` — the groups of six bits, and that reading them undoes writing
  them.
* `pieces_encode_append`, `exists_encode_of_pieces` — **a character is read where it is written**,
  and nowhere else.
* `decode?_eq_some_iff` — **bytes are read as a text iff they are what it is written as.**
-/

set_option autoImplicit false

namespace SnapshotPlan.Text.Utf8

/-! ## Groups of six bits -/

/-- The last `n` groups of six bits, each in a byte that continues a character. -/
def tailBytes : Nat → Nat → List UInt8
  | 0, _ => []
  | n + 1, v => UInt8.ofNat (v / 64 ^ n % 64 + 0x80) :: tailBytes n v

theorem toNat_ofNat_of_lt {k : Nat} (h : k < 256) : (UInt8.ofNat k).toNat = k := Nat.mod_eq_of_lt h

theorem eq_ofNat_of_toNat {b : UInt8} {k : Nat} (h : b.toNat = k) : b = UInt8.ofNat k := by
  rw [← h, UInt8.ofNat_toNat]

variable {n bits v : Nat} {low high : UInt8} {bs rest : List UInt8}

/-- A byte is read if it is between the bounds. -/
theorem tails_succ_eq_some_iff : tails (n + 1) low high bits bs = (some v, rest) ↔
    ∃ b bs', bs = b :: bs' ∧ low.toNat ≤ b.toNat ∧ b.toNat ≤ high.toNat ∧
      tails n 0x80 0xBF (bits * 64 + (b.toNat - 0x80)) bs' = (some v, rest) := by
  cases bs with
  | nil => simp [tails]
  | cons b bs =>
    rw [tails]
    split
    · next h =>
      rw [UInt8.le_iff_toNat_le, UInt8.le_iff_toNat_le] at h
      refine ⟨fun heq => ⟨b, bs, rfl, h.1, h.2, heq⟩, ?_⟩
      rintro ⟨_, _, ⟨⟩, -, -, heq⟩
      exact heq
    · next h =>
      rw [UInt8.le_iff_toNat_le, UInt8.le_iff_toNat_le] at h
      refine iff_of_false (fun heq => Option.some_ne_none v (congrArg Prod.fst heq).symm) ?_
      rintro ⟨_, _, ⟨⟩, hlow, hhigh, -⟩
      exact h ⟨hlow, hhigh⟩

/-- One group more.  The bounds for the first byte may be narrower than for the others. -/
theorem tails_succ_of_tails
    (h : ∀ {bits : Nat} {bs : List UInt8}, tails n 0x80 0xBF bits bs = (some v, rest) ↔
      v / 64 ^ n = bits ∧ bs = tailBytes n v ++ rest)
    (hlow : 0x80 ≤ low.toNat) (hhigh : high.toNat ≤ 0xBF) :
    tails (n + 1) low high bits bs = (some v, rest) ↔
      v / 64 ^ (n + 1) = bits ∧ bs = tailBytes (n + 1) v ++ rest ∧
        low.toNat ≤ v / 64 ^ n % 64 + 0x80 ∧ v / 64 ^ n % 64 + 0x80 ≤ high.toNat := by
  have hbyte := toNat_ofNat_of_lt (show v / 64 ^ n % 64 + 0x80 < 256 by omega)
  simp only [tails_succ_eq_some_iff, h, tailBytes]
  rw [Nat.pow_succ, ← Nat.div_div_eq_div_mul]
  constructor
  · rintro ⟨b, _, rfl, hlow', hhigh', hbits, rfl⟩
    have hb : b.toNat = v / 64 ^ n % 64 + 0x80 := by omega
    refine ⟨by omega, ?_, by omega, by omega⟩
    rw [← eq_ofNat_of_toNat hb]
    rfl
  · rintro ⟨hbits, rfl, hlow', hhigh'⟩
    exact ⟨_, _, rfl, by omega, by omega, by omega, rfl⟩

/-- **Groups of six bits are read as they are written.** -/
theorem tails_eq_some_iff : ∀ {bits : Nat} {bs : List UInt8},
    tails n 0x80 0xBF bits bs = (some v, rest) ↔
      v / 64 ^ n = bits ∧ bs = tailBytes n v ++ rest := by
  induction n with
  | zero =>
    intro bits bs
    rw [tails, Prod.mk.injEq, Option.some.injEq, Nat.pow_zero, Nat.div_one, tailBytes,
      List.nil_append, eq_comm]
  | succ n ih =>
    intro bits bs
    have hlow : (0x80 : UInt8).toNat = 0x80 := rfl
    have hhigh : (0xBF : UInt8).toNat = 0xBF := rfl
    rw [tails_succ_of_tails ih (Nat.le_of_eq hlow.symm) (Nat.le_of_eq hhigh)]
    exact and_congr_right fun _ => and_iff_left ⟨by omega, by omega⟩

/-! ## The first byte

The first byte tells how many bytes follow, what the second may be, and the leading bits of the
number.  The exceptions for the second byte keep out what has a shorter spelling, surrogates, and
numbers too large. -/

/-- What the first byte of a longer character may be. -/
inductive LeadOf : Nat → Lead → Prop
  | two {k : Nat} (h : 0xC2 ≤ k ∧ k ≤ 0xDF) : LeadOf k ⟨1, 0x80, 0xBF, k - 0xC0⟩
  | three_low : LeadOf 0xE0 ⟨2, 0xA0, 0xBF, 0⟩
  | three_split : LeadOf 0xED ⟨2, 0x80, 0x9F, 0xD⟩
  | three {k : Nat} (h : 0xE1 ≤ k ∧ k ≤ 0xEF) (hne : k ≠ 0xED) :
      LeadOf k ⟨2, 0x80, 0xBF, k - 0xE0⟩
  | four_low : LeadOf 0xF0 ⟨3, 0x90, 0xBF, 0⟩
  | four_high : LeadOf 0xF4 ⟨3, 0x80, 0x8F, 4⟩
  | four {k : Nat} (h : 0xF1 ≤ k ∧ k ≤ 0xF3) : LeadOf k ⟨3, 0x80, 0xBF, k - 0xF0⟩

theorem lead?_eq_some_iff {b : UInt8} {l : Lead} : lead? b = some l ↔ LeadOf b.toNat l := by
  simp only [lead?, UInt8.le_iff_toNat_le, ← UInt8.toNat_inj, UInt8.reduceToNat]
  constructor
  · intro h
    split at h
    · next hk => cases h; exact .two hk
    split at h
    · next hk => cases h; rw [hk]; exact .three_low
    split at h
    · next hk => cases h; rw [hk]; exact .three_split
    split at h
    · next hne hk => cases h; exact .three hk hne
    split at h
    · next hk => cases h; rw [hk]; exact .four_low
    split at h
    · next hk => cases h; rw [hk]; exact .four_high
    split at h
    · next hk => cases h; exact .four hk
    · cases h
  · generalize b.toNat = k
    intro h
    cases h with
    | two hk => rw [if_pos hk]
    | three_low => rfl
    | three_split => rfl
    | three hk hne => rw [if_neg (by omega), if_neg (by omega), if_neg hne, if_pos hk]
    | four_low => rfl
    | four_high => rfl
    | four hk =>
      rw [if_neg (by omega), if_neg (by omega), if_neg (by omega), if_neg (by omega),
        if_neg (by omega), if_neg (by omega), if_pos hk]


/-- The number is one that a first byte promises. -/
structure Lead.Fits (l : Lead) (v : Nat) : Prop where
  bits : v / 64 ^ l.tails = l.bits
  low : l.low.toNat ≤ v / 64 ^ (l.tails - 1) % 64 + 0x80
  high : v / 64 ^ (l.tails - 1) % 64 + 0x80 ≤ l.high.toNat

/-- After a first byte, the numbers that it promises are read where they are written. -/
theorem LeadOf.tails_eq_some_iff {k : Nat} {l : Lead} (h : LeadOf k l) :
    tails l.tails l.low l.high l.bits bs = (some v, rest) ↔
      l.Fits v ∧ bs = tailBytes l.tails v ++ rest := by
  obtain ⟨n, hn⟩ : ∃ n, l.tails = n + 1 := by cases h <;> exact ⟨_, rfl⟩
  have hlow : 0x80 ≤ l.low.toNat := by cases h <;> simp
  have hhigh : l.high.toNat ≤ 0xBF := by cases h <;> simp
  rw [hn, tails_succ_of_tails Utf8.tails_eq_some_iff hlow hhigh]
  constructor
  · rintro ⟨hbits, hbs, hl, hh⟩
    exact ⟨⟨by rwa [hn], by rwa [hn], by rwa [hn]⟩, hbs⟩
  · rintro ⟨⟨hbits, hl, hh⟩, hbs⟩
    rw [hn] at hbits hl hh
    exact ⟨hbits, hbs, hl, hh⟩

/-- The number is that of a character of `n + 1` bytes, the first of which is `k`. -/
inductive Heads (v : Nat) : Nat → Nat → Prop
  | two (h : 0x80 ≤ v ∧ v < 0x800) : Heads v 1 (v / 64 + 0xC0)
  | three (h : 0x800 ≤ v ∧ v < 0x10000) (hne : v < 0xD800 ∨ 0xDFFF < v) :
      Heads v 2 (v / 4096 + 0xE0)
  | four (h : 0x10000 ≤ v ∧ v < 0x110000) : Heads v 3 (v / 262144 + 0xF0)

/-- **A first byte promises the numbers of characters.** -/
theorem LeadOf.heads {k : Nat} {l : Lead} (h : LeadOf k l) (hv : l.Fits v) :
    Heads v l.tails k := by
  cases h with
  | two h =>
    have hbits : v / 64 = k - 0xC0 := hv.bits
    obtain rfl : k = v / 64 + 0xC0 := by omega
    exact .two (by omega)
  | three_low =>
    have hbits : v / 4096 = 0 := hv.bits
    have hlow : 0xA0 ≤ v / 64 % 64 + 0x80 := hv.low
    have h := Heads.three (v := v) (by omega) (by omega)
    rwa [hbits] at h
  | three_split =>
    have hbits : v / 4096 = 0xD := hv.bits
    have hhigh : v / 64 % 64 + 0x80 ≤ 0x9F := hv.high
    have h := Heads.three (v := v) (by omega) (by omega)
    rwa [hbits] at h
  | three h hne =>
    have hbits : v / 4096 = k - 0xE0 := hv.bits
    obtain rfl : k = v / 4096 + 0xE0 := by omega
    exact .three (by omega) (by omega)
  | four_low =>
    have hbits : v / 262144 = 0 := hv.bits
    have hlow : 0x90 ≤ v / 4096 % 64 + 0x80 := hv.low
    have h := Heads.four (v := v) (by omega)
    rwa [hbits] at h
  | four_high =>
    have hbits : v / 262144 = 4 := hv.bits
    have hhigh : v / 4096 % 64 + 0x80 ≤ 0x8F := hv.high
    have h := Heads.four (v := v) (by omega)
    rwa [hbits] at h
  | four h =>
    have hbits : v / 262144 = k - 0xF0 := hv.bits
    obtain rfl : k = v / 262144 + 0xF0 := by omega
    exact .four (by omega)

/-- **The number of a character is promised by its first byte.** -/
theorem Heads.exists_lead {k : Nat} (h : Heads v n k) :
    ∃ l, LeadOf k l ∧ l.tails = n ∧ l.Fits v := by
  -- Where the bounds are those of every byte, any group of six bits is between them.
  have hwide : ∀ w, 0x80 ≤ w % 64 + 0x80 ∧ w % 64 + 0x80 ≤ 0xBF := fun w => by omega
  cases h with
  | two h =>
    exact ⟨_, .two (by omega), rfl, (Nat.add_sub_cancel _ _).symm, (hwide _).1, (hwide _).2⟩
  | three h hne =>
    by_cases hlow : v / 4096 = 0
    · rw [hlow]
      exact ⟨_, .three_low, rfl, hlow, show 0xA0 ≤ v / 64 % 64 + 0x80 by omega, (hwide _).2⟩
    · by_cases hsplit : v / 4096 = 0xD
      · rw [hsplit]
        exact ⟨_, .three_split, rfl, hsplit, (hwide _).1,
          show v / 64 % 64 + 0x80 ≤ 0x9F by omega⟩
      · exact ⟨_, .three (by omega) (by omega), rfl, (Nat.add_sub_cancel _ _).symm, (hwide _).1,
          (hwide _).2⟩
  | four h =>
    by_cases hlow : v / 262144 = 0
    · rw [hlow]
      exact ⟨_, .four_low, rfl, hlow, show 0x90 ≤ v / 4096 % 64 + 0x80 by omega, (hwide _).2⟩
    · by_cases hhigh : v / 262144 = 4
      · rw [hhigh]
        exact ⟨_, .four_high, rfl, hhigh, (hwide _).1,
          show v / 4096 % 64 + 0x80 ≤ 0x8F by omega⟩
      · exact ⟨_, .four (by omega), rfl, (Nat.add_sub_cancel _ _).symm, (hwide _).1, (hwide _).2⟩

/-! ## Characters -/

theorem toNat_ofNat_of_valid (h : v.isValidChar) : (Char.ofNat v).toNat = v := by
  rw [Char.ofNat, dif_pos h]
  rfl

variable {c : Char}

theorem encode_one (h : c.toNat < 0x80) :
    String.utf8EncodeChar c = [UInt8.ofNat c.toNat] := by
  rw [String.utf8EncodeChar]
  exact if_pos (Nat.le_of_lt_succ h)

theorem encode_two (hlow : 0x80 ≤ c.toNat) (hhigh : c.toNat < 0x800) :
    String.utf8EncodeChar c = UInt8.ofNat (c.toNat / 64 + 0xC0) :: tailBytes 1 c.toNat := by
  have hhead : c.toNat / 64 % 0x20 = c.toNat / 64 := Nat.mod_eq_of_lt (by omega)
  rw [← hhead, tailBytes, tailBytes, Nat.pow_zero, Nat.div_one, String.utf8EncodeChar]
  exact (if_neg (Nat.not_le.2 hlow)).trans (if_pos (Nat.le_of_lt_succ hhigh))

theorem encode_three (hlow : 0x800 ≤ c.toNat) (hhigh : c.toNat < 0x10000) :
    String.utf8EncodeChar c = UInt8.ofNat (c.toNat / 4096 + 0xE0) :: tailBytes 2 c.toNat := by
  have hhead : c.toNat / 4096 % 0x10 = c.toNat / 4096 := Nat.mod_eq_of_lt (by omega)
  rw [← hhead, tailBytes, tailBytes, tailBytes, Nat.pow_zero, Nat.div_one, Nat.pow_one,
    String.utf8EncodeChar]
  exact (if_neg (by have : c.val.toNat = c.toNat := rfl; omega)).trans
    ((if_neg (Nat.not_le.2 hlow)).trans (if_pos (Nat.le_of_lt_succ hhigh)))

theorem encode_four (hlow : 0x10000 ≤ c.toNat) :
    String.utf8EncodeChar c = UInt8.ofNat (c.toNat / 262144 + 0xF0) :: tailBytes 3 c.toNat := by
  have hvalid : c.toNat < 0xD800 ∨ 0xDFFF < c.toNat ∧ c.toNat < 0x110000 := c.valid
  have hval : c.val.toNat = c.toNat := rfl
  have hhead : c.toNat / 262144 % 0x08 = c.toNat / 262144 := Nat.mod_eq_of_lt (by omega)
  rw [← hhead, tailBytes, tailBytes, tailBytes, tailBytes, Nat.pow_zero, Nat.div_one, Nat.pow_one,
    String.utf8EncodeChar]
  exact (if_neg (by omega)).trans ((if_neg (by omega)).trans (if_neg (Nat.not_le.2 hlow)))

/-- **A character of several bytes** is its first byte and then groups of six bits. -/
theorem Heads.encode {k : Nat} (h : Heads v n k) :
    String.utf8EncodeChar (Char.ofNat v) = UInt8.ofNat k :: tailBytes n v ∧
      (Char.ofNat v).toNat = v ∧ 0x80 ≤ k := by
  have hvalid : v.isValidChar := by cases h <;> (unfold Nat.isValidChar; omega)
  have hnat := toNat_ofNat_of_valid hvalid
  cases h with
  | two h =>
    have henc := @encode_two (Char.ofNat v) (by omega) (by omega)
    rw [hnat] at henc
    exact ⟨henc, hnat, by omega⟩
  | three h hne =>
    have henc := @encode_three (Char.ofNat v) (by omega) (by omega)
    rw [hnat] at henc
    exact ⟨henc, hnat, by omega⟩
  | four h =>
    have henc := @encode_four (Char.ofNat v) (by omega)
    rw [hnat] at henc
    exact ⟨henc, hnat, by omega⟩

theorem exists_heads (h : 0x80 ≤ c.toNat) : ∃ n k, k < 256 ∧ Heads c.toNat n k := by
  have hvalid : c.toNat < 0xD800 ∨ 0xDFFF < c.toNat ∧ c.toNat < 0x110000 := c.valid
  by_cases htwo : c.toNat < 0x800
  · exact ⟨1, _, by omega, .two ⟨h, htwo⟩⟩
  · by_cases hthree : c.toNat < 0x10000
    · exact ⟨2, _, by omega, .three ⟨by omega, hthree⟩ (by omega)⟩
    · exact ⟨3, _, by omega, .four (by omega)⟩

/-! ## Reading characters -/

theorem pieces_cons_of_lead {b : UInt8} {l : Lead} (hb : 0x80 ≤ b.toNat) (hl : lead? b = some l)
    (hread : tails l.tails l.low l.high l.bits bs = (some v, rest)) :
    pieces (b :: bs) = some (Char.ofNat v) :: pieces rest := by
  rw [pieces, if_neg (by rw [UInt8.lt_iff_toNat_lt]; exact Nat.not_lt.2 hb), hl]
  simp only [hread, Option.map_some]

/-- **A character is read where it is written.** -/
theorem pieces_encode_append (c : Char) (rest : List UInt8) :
    pieces (String.utf8EncodeChar c ++ rest) = some c :: pieces rest := by
  by_cases h : c.toNat < 0x80
  · have hbyte := toNat_ofNat_of_lt (show c.toNat < 256 by omega)
    have hlt : UInt8.ofNat c.toNat < 0x80 := by rw [UInt8.lt_iff_toNat_lt, hbyte]; exact h
    rw [encode_one h, List.singleton_append, pieces, if_pos hlt, hbyte, Char.ofNat_toNat]
  · obtain ⟨n, k, hk, hheads⟩ := exists_heads (Nat.not_lt.1 h)
    obtain ⟨henc, -, hle⟩ := hheads.encode
    obtain ⟨l, hlead, rfl, hfits⟩ := hheads.exists_lead
    have hbyte := toNat_ofNat_of_lt hk
    rw [Char.ofNat_toNat] at henc
    rw [henc, List.cons_append, pieces_cons_of_lead (hbyte.symm ▸ hle)
      (lead?_eq_some_iff.2 (hbyte.symm ▸ hlead)) (hlead.tails_eq_some_iff.2 ⟨hfits, rfl⟩),
      Char.ofNat_toNat]

/-- **Where a character is read, it is written.** -/
theorem exists_encode_of_pieces {ps : List (Option Char)} (h : pieces bs = some c :: ps) :
    ∃ rest, bs = String.utf8EncodeChar c ++ rest ∧ pieces rest = ps := by
  cases bs with
  | nil => rw [pieces] at h; cases h
  | cons b bs =>
    rw [pieces] at h
    split at h
    · next hlt =>
      obtain ⟨hc, hps⟩ := List.cons.inj h
      rw [UInt8.lt_iff_toNat_lt] at hlt
      have hlt : b.toNat < 0x80 := hlt
      obtain rfl := Option.some.inj hc
      have hnat := toNat_ofNat_of_valid (.inl (show b.toNat < 0xD800 by omega))
      refine ⟨bs, ?_, hps⟩
      rw [encode_one (by rwa [hnat]), hnat, UInt8.ofNat_toNat]
      rfl
    · split at h
      · cases h
      · next l hl =>
        rcases hread : tails l.tails l.low l.high l.bits bs with ⟨_ | v, rest⟩
        · rw [hread] at h
          cases h
        · rw [hread] at h
          obtain ⟨hc, hps⟩ := List.cons.inj h
          obtain rfl := Option.some.inj hc
          have hlead := lead?_eq_some_iff.1 hl
          obtain ⟨hfits, rfl⟩ := hlead.tails_eq_some_iff.1 hread
          obtain ⟨henc, -⟩ := (hlead.heads hfits).encode
          rw [UInt8.ofNat_toNat] at henc
          exact ⟨rest, by rw [henc]; rfl, hps⟩

/-! ## Reading texts

Reading is greedy and never looks back, so a text that is cut into characters at the front is cut
the same way throughout. -/

theorem pieces_flatMap_encode (cs : List Char) :
    pieces (cs.flatMap String.utf8EncodeChar) = cs.map some := by
  induction cs with
  | nil => rw [List.flatMap_nil, pieces, List.map_nil]
  | cons c cs ih => rw [List.flatMap_cons, pieces_encode_append, ih, List.map_cons]

theorem eq_nil_of_pieces (h : pieces bs = []) : bs = [] := by
  cases bs with
  | nil => rfl
  | cons b bs =>
    rw [pieces] at h
    split at h
    · cases h
    · split at h <;> cases h

theorem eq_flatMap_encode_of_pieces {cs : List Char} : ∀ {bs : List UInt8},
    pieces bs = cs.map some → bs = cs.flatMap String.utf8EncodeChar := by
  induction cs with
  | nil => exact fun h => eq_nil_of_pieces h
  | cons c cs ih =>
    intro bs h
    obtain ⟨rest, rfl, hrest⟩ := exists_encode_of_pieces h
    rw [List.flatMap_cons, ← ih hrest]

theorem toList_loop (bytes : ByteArray) (i : Nat) (done : List UInt8) :
    ByteArray.toList.loop bytes i done = done.reverse ++ bytes.data.toList.drop i := by
  fun_induction ByteArray.toList.loop bytes i done with
  | case1 i done h ih =>
    have hi : i < bytes.data.toList.length := h
    have hget : bytes.get! i = bytes.data.toList[i] := getElem!_pos bytes.data i h
    rw [ih, List.drop_eq_getElem_cons hi, List.reverse_cons, List.append_assoc, hget]
    rfl
  | case2 i done h =>
    rw [List.drop_eq_nil_of_le (Nat.not_lt.1 h), List.append_nil]

/-- The bytes of a text are those of its characters. -/
theorem toList_toUTF8 (s : String) :
    s.toUTF8.toList = s.toList.flatMap String.utf8EncodeChar := by
  rw [ByteArray.toList, toList_loop, String.toUTF8_eq_toByteArray, ← String.utf8Encode_toList,
    List.utf8Encode, List.toList_data_toByteArray]
  rfl

/-- **Bytes are read as a text iff they are what it is written as.** -/
theorem decode?_eq_some_iff {bytes : List UInt8} {s : String} :
    decode? bytes = some s ↔ bytes = s.toUTF8.toList := by
  rw [toList_toUTF8, decode?, Option.map_eq_some_iff]
  constructor
  · rintro ⟨cs, hcs, rfl⟩
    rw [String.toList_ofList]
    rw [mapM_eq_some_iff, List.map_id] at hcs
    exact eq_flatMap_encode_of_pieces hcs
  · rintro rfl
    refine ⟨s.toList, mapM_eq_some_iff.2 ?_, String.ofList_toList⟩
    rw [List.map_id]
    exact pieces_flatMap_encode _

end SnapshotPlan.Text.Utf8
